import PackageInstaller.Proofs.Layout

/-! The lines of a text, the blanks that a line begins with, and how far the editor passes over a comment that
ends a line. -/

namespace PackageInstaller.Manifest

open Layout

/-- The lines of a text, without the line feeds between them. -/
def rows (t : Text) : List Text := t.splitOn '\n'

/-- What follows an offset on its line. -/
def restOfLine (t : Text) (pos : Nat) : Text := (t.drop pos).takeWhile (· ≠ '\n')

variable {t u v w x z : Text} {before after : List Text} {front : Text}

lemma rows_of_notMem (h : '\n' ∉ t) : rows t = [t] := List.splitOn_eq_singleton h

lemma rows_append_newline (u v : Text) : rows (u ++ '\n' :: v) = rows u ++ rows v := by
  simp only [rows, List.splitOn_eq_splitOnP]
  exact List.splitOnP_append_cons u v rfl

lemma exists_last_row (u : Text) : '\n' ∉ u ∨ ∃ a v, u = a ++ '\n' :: v ∧ '\n' ∉ v := by
  by_cases hu : '\n' ∈ u.reverse
  · obtain ⟨v, a, hva, hv⟩ := List.eq_append_cons_of_mem hu
    refine .inr ⟨a.reverse, v.reverse, ?_, by simpa using hv⟩
    rw [← List.reverse_reverse u, hva]
    simp
  · exact .inl (by simpa using hu)

lemma rows_eq_concat (h : rows u = before ++ [front]) : '\n' ∉ front ∧
    (before = [] ∧ u = front ∨ ∃ a, rows a = before ∧ u = a ++ '\n' :: front) := by
  rcases exists_last_row u with hu | ⟨a, v, rfl, hv⟩
  · rw [rows_of_notMem hu] at h
    obtain ⟨rfl, hfront⟩ := List.append_inj' (show [] ++ [u] = before ++ [front] from h) rfl
    obtain rfl := List.singleton_inj.mp hfront
    exact ⟨hu, .inl ⟨rfl, rfl⟩⟩
  · rw [rows_append_newline, rows_of_notMem hv] at h
    obtain ⟨rfl, hfront⟩ := List.append_inj' h rfl
    obtain rfl := List.singleton_inj.mp hfront
    exact ⟨hv, .inr ⟨a, rfl, rfl⟩⟩

lemma exists_rows_eq_concat (u : Text) : ∃ before front, rows u = before ++ [front] := by
  rcases exists_last_row u with hu | ⟨a, v, rfl, hv⟩
  · exact ⟨[], u, rows_of_notMem hu⟩
  · exact ⟨rows a, v, by rw [rows_append_newline, rows_of_notMem hv]⟩

lemma rows_append (h : rows u = before ++ [front]) (v : Text) : rows (u ++ v) = before ++ rows (front ++ v) := by
  obtain ⟨-, ⟨rfl, rfl⟩ | ⟨a, rfl, rfl⟩⟩ := rows_eq_concat h
  · rfl
  · rw [← rows_append_newline]
    simp

lemma rows_line (h : '\n' ∉ v) (z : Text) : rows (v ++ '\n' :: z) = v :: rows z := by
  rw [rows_append_newline, rows_of_notMem h, List.singleton_append]

lemma rows_ne_nil (t : Text) : rows t ≠ [] := by
  obtain ⟨before, front, h⟩ := exists_rows_eq_concat t
  simp [h]

lemma rows_append_left {last : Text} (hv : '\n' ∉ v) (h : rows z = last :: after) :
    rows (v ++ z) = (v ++ last) :: after := by
  by_cases hz : '\n' ∈ z
  · obtain ⟨l, r, rfl, hl⟩ := List.eq_append_cons_of_mem hz
    rw [rows_line hl] at h
    obtain ⟨rfl, rfl⟩ := List.cons.inj h
    rw [← List.append_assoc, rows_line (by simpa using ⟨hv, hl⟩)]
  · rw [rows_of_notMem hz] at h
    obtain ⟨rfl, rfl⟩ := List.cons.inj h
    rw [rows_of_notMem (by simpa using ⟨hv, hz⟩)]

lemma restOfLine_length (h : '\n' ∉ v) (u z : Text) : restOfLine (u ++ (v ++ '\n' :: z)) u.length = v := by
  rw [restOfLine, List.drop_left, List.takeWhile_append_of_pos]
  · simp
  · intro c hc
    simpa using ne_of_mem_of_not_mem hc h

lemma lineStart_first (h : '\n' ∉ u) (v : Text) : lineStart (u ++ v) u.length = 0 := by
  have hall : u.reverse.takeWhile (· ≠ '\n') = u.reverse := by
    apply List.takeWhile_eq_self_iff.mpr
    intro c hc
    simpa using ne_of_mem_of_not_mem (List.mem_reverse.mp hc) h
  rw [lineStart, List.take_left, hall, List.length_reverse, Nat.sub_self]

lemma lineIndent_rows (h : rows u = before ++ [front]) (v : Text) :
    lineIndent (u ++ v) u.length = (front ++ v).takeWhile isIndent := by
  obtain ⟨hfront, ⟨-, rfl⟩ | ⟨a, -, rfl⟩⟩ := rows_eq_concat h
  · rw [lineIndent, lineStart_first hfront, List.drop_zero]
  · have hlen : (a ++ '\n' :: front).length = a.length + 1 + front.length := by
      simp
      omega
    rw [hlen, List.append_assoc, List.cons_append, lineIndent_length hfront]

lemma isIndent_ne_newline {c : Char} (h : isIndent c = true) : c ≠ '\n' := by
  rintro rfl
  exact absurd h (by decide)

lemma newline_notMem_indent (h : ∀ c ∈ w, isIndent c = true) : '\n' ∉ w :=
  fun hm => isIndent_ne_newline (h _ hm) rfl

lemma takeWhile_append_head {p : Char → Bool} (u : Text) (hv : ∀ c ∈ v.head?, p c = false) :
    (u ++ v).takeWhile p = u.takeWhile p := by
  cases v with
  | nil => rw [List.append_nil]
  | cons c v => rw [takeWhile_append_stop (hv c rfl)]

lemma slice_indent {b s : Text} {limit : Nat} (hw : ∀ c ∈ w, isIndent c = true)
    (hs : ∀ c ∈ s.head?, isIndent c = false) (hlimit : (b ++ w).length ≤ limit) :
    (Text.slice (b ++ (w ++ s)) b.length limit).takeWhile isIndent = w := by
  obtain ⟨n, hn⟩ : ∃ n, limit - b.length = w.length + n := by
    rw [List.length_append] at hlimit
    exact ⟨limit - b.length - w.length, by omega⟩
  have hhead : ∀ c ∈ (s.take n).head?, isIndent c = false := by
    intro c hc
    rw [List.head?_take] at hc
    split_ifs at hc
    · simp at hc
    · exact hs c hc
  rw [Text.slice, List.drop_left, hn, List.take_length_add_append, takeWhile_append_head w hhead]
  exact List.takeWhile_eq_self_iff.mpr hw

lemma pastLineComment_comment {b c : Text} {limit : Nat} (hw : ∀ d ∈ w, isIndent d = true)
    (hc : ['/', '/'].isPrefixOf c = true) (hn : '\n' ∉ c) (hlimit : (b ++ (w ++ c)).length < limit) :
    pastLineComment (b ++ (w ++ (c ++ '\n' :: z))) b.length limit = (b ++ (w ++ c)).length := by
  obtain ⟨c', rfl⟩ := List.isPrefixOf_iff_prefix.mp hc
  rw [← List.append_assoc, List.length_append] at hlimit
  have hindent := @slice_indent w b (['/', '/'] ++ c' ++ '\n' :: z) limit hw
    (by simp; decide) (by omega)
  have hdrop : (b ++ (w ++ (['/', '/'] ++ c' ++ '\n' :: z))).drop (b ++ w).length =
      ['/', '/'] ++ c' ++ '\n' :: z := by
    rw [← List.append_assoc b, List.drop_left]
  have hprefix : ['/', '/'].isPrefixOf (['/', '/'] ++ c' ++ '\n' :: z) = true := rfl
  have hfound := @indexFrom?_first (b ++ w) (['/', '/'] ++ c') z '\n' limit hn hlimit
  rw [List.append_assoc] at hfound
  simp only [pastLineComment, hindent, ← List.length_append]
  rw [hdrop, if_pos hprefix, hfound, Option.getD_some]
  simp [Nat.add_assoc]

lemma pastLineComment_other {b s : Text} {limit : Nat} (hw : ∀ d ∈ w, isIndent d = true)
    (hs : ∀ c ∈ s.head?, isIndent c = false) (hc : ['/', '/'].isPrefixOf s = false)
    (hlimit : (b ++ w).length ≤ limit) : pastLineComment (b ++ (w ++ s)) b.length limit = b.length := by
  have hdrop : (b ++ (w ++ s)).drop (b ++ w).length = s := by rw [← List.append_assoc, List.drop_left]
  simp only [pastLineComment, slice_indent hw hs hlimit, ← List.length_append]
  rw [hdrop, if_neg (by simp [hc])]

end PackageInstaller.Manifest
