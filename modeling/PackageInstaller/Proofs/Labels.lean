import PackageInstaller.Proofs.Arguments

/-! Labels and values of arguments, and the whole of an argument list as its segments show it. -/

namespace PackageInstaller.Manifest

/-- A text that begins with a name, blanks, and a colon that no other one follows. -/
structure Heading (t name blanks rest : Text) : Prop where
  text : t = name ++ (blanks ++ ':' :: rest)
  name : ∃ c word, name = c :: word ∧ Text.isLabelStart c = true ∧ ∀ d ∈ word, Text.isWord d = true
  blanks : ∀ c ∈ blanks, Text.isBlank c = true
  single : rest.head? ≠ some ':'

lemma exists_range_of_holds {ranges : Text.Ranges} {n : Nat} (h : ranges.holds n = true) :
    ∃ range ∈ ranges, range.1 ≤ n ∧ n ≤ range.2 := by
  induction ranges with
  | nil => simp [Text.Ranges.holds] at h
  | cons range ranges ih =>
    rw [Text.Ranges.holds] at h
    split_ifs at h with hfirst hlast
    · exact ⟨range, List.mem_cons_self, Nat.le_of_not_lt hfirst, hlast⟩
    · obtain ⟨later, hmem, hin⟩ := ih h
      exact ⟨later, List.mem_cons_of_mem _ hmem, hin⟩

lemma not_word_of_isBlank {c : Char} (h : Text.isBlank c = true) : Text.isWord c = false := by
  have apart : ∀ p ∈ Text.blankRanges, ∀ q ∈ Text.wordRanges, p.2 < q.1 ∨ q.2 < p.1 := by decide +kernel
  obtain ⟨p, hp, hpl, hpr⟩ := exists_range_of_holds h
  by_contra hword
  obtain ⟨q, hq, hql, hqr⟩ := exists_range_of_holds (Bool.not_eq_false _ ▸ hword : Text.isWord c = true)
  have := apart p hp q hq
  omega

lemma label?_iff {t name : Text} {n : Nat} : label? t = some (name, n) ↔
    ∃ blanks rest, Heading t name blanks rest ∧ n = name.length + blanks.length + 1 := by
  cases t with
  | nil =>
    constructor
    · simp [label?]
    · rintro ⟨blanks, rest, h, -⟩
      have := h.text
      simp at this
  | cons c t =>
    constructor
    · intro h
      rw [label?] at h
      split_ifs at h with hc
      have hsplit : t = t.takeWhile Text.isWord ++ ((t.dropWhile Text.isWord).takeWhile Text.isBlank ++
          (t.dropWhile Text.isWord).dropWhile Text.isBlank) := by
        rw [List.takeWhile_append_dropWhile, List.takeWhile_append_dropWhile]
      have hword : ∀ d ∈ t.takeWhile Text.isWord, Text.isWord d = true := fun d hd => List.mem_takeWhile_imp hd
      have hblank : ∀ d ∈ (t.dropWhile Text.isWord).takeWhile Text.isBlank, Text.isBlank d = true :=
        fun d hd => List.mem_takeWhile_imp hd
      generalize t.takeWhile Text.isWord = word at *
      generalize (t.dropWhile Text.isWord).takeWhile Text.isBlank = blanks at *
      generalize (t.dropWhile Text.isWord).dropWhile Text.isBlank = rest at *
      simp only at h
      split at h
      · simp at h
      · rename_i rest hsingle
        obtain ⟨rfl, rfl⟩ := Prod.mk.inj (Option.some.inj h)
        refine ⟨blanks, rest, ⟨by rw [hsplit]; rfl, ⟨c, word, rfl, hc, hword⟩, hblank, fun hrest => ?_⟩, rfl⟩
        obtain ⟨r, rfl⟩ := List.head?_eq_some_iff.mp hrest
        exact hsingle r rfl
      · simp at h
    · rintro ⟨blanks, rest, ⟨htext, ⟨d, word, rfl, hd, hword⟩, hblank, hsingle⟩, rfl⟩
      obtain ⟨rfl, ht⟩ : c = d ∧ t = word ++ (blanks ++ ':' :: rest) := by simpa using htext
      obtain ⟨e, u, hu, he⟩ : ∃ e u, blanks ++ ':' :: rest = e :: u ∧ Text.isWord e = false := by
        cases blanks with
        | nil => exact ⟨':', rest, rfl, by decide⟩
        | cons b blanks => exact ⟨b, _, rfl, not_word_of_isBlank (hblank b List.mem_cons_self)⟩
      have htake : t.takeWhile Text.isWord = word := by
        rw [ht, hu, takeWhile_append_stop he, List.takeWhile_eq_self_iff.mpr hword]
      have hdrop : t.dropWhile Text.isWord = blanks ++ ':' :: rest := by
        rw [ht, hu, dropWhile_append_stop he, List.dropWhile_eq_nil_iff.mpr hword, List.nil_append]
      have hcolon : Text.isBlank ':' = false := by decide
      rw [label?, if_pos hd, htake, hdrop]
      simp only [takeWhile_append_stop hcolon, dropWhile_append_stop hcolon,
        List.takeWhile_eq_self_iff.mpr hblank, List.dropWhile_eq_nil_iff.mpr hblank, List.nil_append]
      cases rest with
      | nil => rfl
      | cons r rest =>
        have hr : r ≠ ':' := by simpa using hsingle
        simp [hr]

lemma label?_eq_some {t name : Text} {n : Nat} (h : label? t = some (name, n)) :
    ∃ w r, t = w ++ r ∧ w.length = n ∧ ∀ c ∈ w, Ordinary c := by
  obtain ⟨blanks, rest, ⟨rfl, ⟨c, word, rfl, hc, hword⟩, hblank, -⟩, rfl⟩ := label?_iff.mp h
  refine ⟨c :: word ++ blanks ++ [':'], rest, by simp, ?_, fun d hd => ?_⟩
  · rw [List.length_append, List.length_append, List.length_singleton]
  · simp only [List.cons_append, List.mem_cons, List.mem_append, List.not_mem_nil, or_false] at hd
    rcases hd with rfl | (hd | hd) | rfl
    · exact ordinary_of_isLabelStart hc
    · exact ordinary_of_isWord (hword d hd)
    · exact ordinary_of_isBlank (hblank d hd)
    · decide

lemma label?_opener {o k : Char} (ho : closerOf? o = some k) (u v v' : Text) :
    label? (u ++ o :: v) = label? (u ++ o :: v') ∧
      ∀ name n, label? (u ++ o :: v) = some (name, n) → n ≤ u.length := by
  have hx : Text.isLabelStart o = false ∧ Text.isWord o = false ∧ Text.isBlank o = false ∧ o ≠ ':' := by
    unfold closerOf? at ho
    split at ho <;> simp only [Option.some.injEq, reduceCtorEq] at ho <;> subst ho <;> decide
  obtain ⟨h₁, h₂, h₃, h₄⟩ := hx
  cases u with
  | nil => simp [label?, h₁]
  | cons c u =>
    simp only [List.cons_append, label?, takeWhile_append_stop h₂, dropWhile_append_stop h₂,
      takeWhile_append_stop h₃, dropWhile_append_stop h₃]
    have hw := congrArg List.length (List.takeWhile_append_dropWhile (p := Text.isWord) (l := u))
    have hb := congrArg List.length (List.takeWhile_append_dropWhile (p := Text.isBlank)
      (l := u.dropWhile Text.isWord))
    rw [List.length_append] at hw hb
    generalize (u.dropWhile Text.isWord).dropWhile Text.isBlank = rest at *
    split_ifs with hc
    · rcases rest with _ | ⟨a, _ | ⟨b, rest⟩⟩
      · simp [h₄]
      · by_cases ha : a = ':'
        · subst ha
          simp only [List.length_singleton] at hb
          simp [h₄]
          omega
        · simp [ha]
      · by_cases ha : a = ':'
        · by_cases hb' : b = ':'
          · simp [ha, hb']
          · subst ha
            simp only [List.length_cons] at hb
            simp [hb']
            omega
        · simp [ha]
    · simp

end PackageInstaller.Manifest
