import Mathlib.Data.List.Basic
import Mathlib.Data.List.Infix
import PackageInstaller.Text.Lowercase

/-! Lower-casing, one character at a time. What it gives stays as it is when it is lower-cased again, the case of
the ASCII letters does not matter to it, and it moves no blank and no plain mark to an end of a text. -/

namespace PackageInstaller.Text

/-- The run changes none of the code points from `low` to `high` that are `stride` apart. -/
def CaseRun.spares (r : CaseRun) (low high stride : Nat) : Bool :=
  Nat.blt high r.first || Nat.blt r.last low ||
    (r.stride % 2 == 0 && (stride % 2 == 0 || low == high) && (low + r.first) % 2 == 1)

/-- None of the code points from `low` to `high` is in the class. -/
def Ranges.spares (s : Ranges) (low high : Nat) : Bool := s.all fun r => Nat.blt high r.1 || Nat.blt r.2 low

def CaseRun.low (r : CaseRun) : Nat := (r.first + r.shift).toNat

def CaseRun.high (r : CaseRun) : Nat := (r.last + r.shift).toNat

/-- No run changes what this one gives, no part of either is blank, and ASCII stays apart: its capitals have a run of
their own, and the other runs give no ASCII but the `k` of the Kelvin sign. -/
def CaseRun.settles (r : CaseRun) : Bool :=
  decide (0 ≤ r.first + r.shift) && caseRuns.all (·.spares r.low r.high r.stride) &&
    Ranges.spares [(0x130, 0x130), (0x3A3, 0x3A3), (0xD800, 0xDFFF)] r.low r.high &&
    Nat.blt r.high 0x110000 && Ranges.spares blankRanges r.first r.last && Ranges.spares blankRanges r.low r.high &&
    (r.first == 0x41 && r.last == 0x5A && decide (r.shift = 32) ||
      Nat.blt 0x7F r.first && (Nat.blt 0x7F r.low || r.low == 0x6B && r.high == 0x6B))

/-- What lower-casing may make of a code point that it changes. -/
structure Settled (n m : Nat) : Prop where
  fixed : ∀ r ∈ caseRuns, r.lower? m = none
  scalar : m.isValidChar
  ne_dotted : m ≠ 0x130
  ne_sigma : m ≠ 0x3A3
  solid : blankRanges.holds n = false
  solid_lowered : blankRanges.holds m = false
  ascii : 0x41 ≤ n ∧ n ≤ 0x5A ∧ m = n + 32 ∨ 0x80 ≤ n ∧ (0x80 ≤ m ∨ m = 0x6B)

/-- What a character becomes, by where it stands. -/
inductive LowersTo : Char → Text → Prop
  | sigma : LowersTo 'Σ' ['σ']
  | final : LowersTo 'Σ' ['ς']
  | dotted : LowersTo 'İ' ['i', '\u0307']
  | other {c : Char} (hsigma : c ≠ 'Σ') (hdotted : c ≠ 'İ') : LowersTo c [lowerChar c]

/-- A character that lower-casing leaves as it is, wherever it stands. -/
def IsLower (c : Char) : Prop := lowerChar c = c ∧ c ≠ 'Σ' ∧ c ≠ 'İ'

/-- An ASCII character that only itself and its capital become. -/
def Simple (c : Char) : Prop := c.toNat < 0x80 ∧ c ≠ 'k' ∧ c.toLower = c

variable {c d : Char} {t u p : Text} {r : CaseRun} {s : Ranges} {low high stride n m : Nat}

lemma CaseRun.lower?_of_spares (h : r.spares low high stride = true) (hlow : low ≤ m) (hhigh : m ≤ high)
    (hm : (m - low) % stride = 0) : r.lower? m = none := by
  simp only [CaseRun.spares, Bool.or_eq_true, Bool.and_eq_true, Nat.blt_eq, beq_iff_eq] at h
  rw [CaseRun.lower?, if_neg]
  rintro ⟨hfirst, hlast, hr⟩
  rcases h with (h | h) | ⟨⟨hstride, h⟩, hodd⟩
  · omega
  · omega
  · -- both sequences have even steps, and begin an odd number apart
    have heven : 2 ∣ m - r.first := Nat.dvd_trans (Nat.dvd_of_mod_eq_zero hstride) (Nat.dvd_of_mod_eq_zero hr)
    have hsame : 2 ∣ m - low := by
      rcases h with h | h
      · exact Nat.dvd_trans (Nat.dvd_of_mod_eq_zero h) (Nat.dvd_of_mod_eq_zero hm)
      · simp [show m - low = 0 by omega]
    omega

lemma Ranges.holds_of_spares (h : s.spares low high = true) (hlow : low ≤ n) (hhigh : n ≤ high) : s.holds n = false := by
  induction s with
  | nil => rfl
  | cons r s ih =>
    simp only [Ranges.spares, List.all_cons, Bool.and_eq_true, Bool.or_eq_true, Nat.blt_eq] at h
    have hs := ih h.2
    rw [Ranges.holds, hs]
    split_ifs with h₁ h₂
    · rfl
    · omega
    · rfl

lemma caseRuns_settle : caseRuns.all CaseRun.settles = true := by decide +kernel

lemma settled_of_run (hr : r ∈ caseRuns) (h : r.lower? n = some m) : Settled n m := by
  have hsettles := List.all_eq_true.mp caseRuns_settle r hr
  simp only [CaseRun.settles, Bool.and_eq_true, decide_eq_true_eq] at hsettles
  obtain ⟨⟨⟨⟨⟨⟨hnonneg, hruns⟩, hspecial⟩, hbound⟩, hblank⟩, hlowered⟩, hascii⟩ := hsettles
  rw [CaseRun.lower?] at h
  split_ifs at h with hn
  obtain ⟨hfirst, hlast, hmod⟩ := hn
  have hm : m = (n + r.shift).toNat := (Option.some.inj h).symm
  have hlow : r.low ≤ m := by rw [hm, CaseRun.low]; omega
  have hhigh : m ≤ r.high := by rw [hm, CaseRun.high]; omega
  have hdist : m - r.low = n - r.first := by rw [hm, CaseRun.low]; omega
  simp only [Ranges.spares, List.all_cons, List.all_nil, Bool.and_eq_true, Bool.or_eq_true, Nat.blt_eq] at hspecial
  simp only [Nat.blt_eq, Bool.or_eq_true, Bool.and_eq_true, beq_iff_eq, decide_eq_true_eq] at hbound hascii
  refine ⟨fun k hk => ?_, ?_, by omega, by omega, ?_, ?_, ?_⟩
  · exact CaseRun.lower?_of_spares (List.all_eq_true.mp hruns k hk) hlow hhigh (hdist ▸ hmod)
  · rw [Nat.isValidChar]
    omega
  · exact Ranges.holds_of_spares hblank hfirst hlast
  · exact Ranges.holds_of_spares hlowered hlow hhigh
  · omega

lemma lowerChar_cases (c : Char) :
    lowerChar c = c ∧ (∀ r ∈ caseRuns, r.lower? c.toNat = none) ∨ Settled c.toNat (lowerChar c).toNat := by
  rw [lowerChar]
  cases h : caseRuns.findSome? (·.lower? c.toNat) with
  | none => exact .inl ⟨rfl, List.findSome?_eq_none_iff.mp h⟩
  | some m =>
    obtain ⟨r, hr, hm⟩ := List.exists_of_findSome?_eq_some h
    have hsettled := settled_of_run hr hm
    have hchar : (Char.ofNat m).toNat = m := by
      rw [Char.ofNat, dif_pos hsettled.scalar]
      rfl
    exact .inr (hchar.symm ▸ hsettled)

lemma lowerChar_of_runs (h : ∀ r ∈ caseRuns, r.lower? c.toNat = none) : lowerChar c = c := by
  rw [lowerChar, List.findSome?_eq_none_iff.mpr h]

@[simp] lemma lowerChar_lowerChar (c : Char) : lowerChar (lowerChar c) = lowerChar c := by
  rcases lowerChar_cases c with ⟨h, -⟩ | h
  · rw [h, h]
  · exact lowerChar_of_runs h.fixed

@[simp] lemma isBlank_lowerChar (c : Char) : isBlank (lowerChar c) = isBlank c := by
  rcases lowerChar_cases c with ⟨h, -⟩ | h
  · rw [h]
  · exact h.solid_lowered.trans h.solid.symm

lemma isLower_lowerChar (hsigma : c ≠ 'Σ') (hdotted : c ≠ 'İ') : IsLower (lowerChar c) := by
  rcases lowerChar_cases c with ⟨h, -⟩ | h
  · rw [h]
    exact ⟨h, hsigma, hdotted⟩
  · refine ⟨lowerChar_of_runs h.fixed, fun he => h.ne_sigma ?_, fun he => h.ne_dotted ?_⟩
    · rw [he]
      rfl
    · rw [he]
      rfl

lemma toLower_cases (c : Char) : c.toLower = c ∧ ¬(0x41 ≤ c.toNat ∧ c.toNat ≤ 0x5A) ∨
    0x41 ≤ c.toNat ∧ c.toNat ≤ 0x5A ∧ c.toLower.toNat = c.toNat + 32 := by
  delta Char.toLower
  simp only [ge_iff_le, UInt32.le_iff_toNat_le, Char.reduceVal]
  split_ifs with h
  · have hlast : c.toNat ≤ 0x5A := h.2
    have hadd : (c.val + 32).toNat = (c.toNat + 32) % 2 ^ 32 := UInt32.toNat_add _ _
    refine .inr ⟨h.1, hlast, ?_⟩
    change (c.val + 32).toNat = _
    omega
  · exact .inl ⟨rfl, h⟩

/-- What lower-casing looks at, alike for two code points. -/
def Alike (n m : Nat) : Prop :=
  casedRanges.holds n = casedRanges.holds m ∧ caseIgnorableRanges.holds n = caseIgnorableRanges.holds m ∧
    blankRanges.holds n = blankRanges.holds m

instance : Decidable (Alike n m) := by
  delta Alike
  infer_instance

lemma capital_lowered (hfirst : 0x41 ≤ n) (hlast : n ≤ 0x5A) :
    caseRuns.findSome? (·.lower? n) = some (n + 32) ∧ Alike (n + 32) n := by
  have h : ∀ k < 26, caseRuns.findSome? (·.lower? (0x41 + k)) = some (0x41 + k + 32) ∧
      Alike (0x41 + k + 32) (0x41 + k) := by decide +kernel
  obtain ⟨k, rfl⟩ := Nat.exists_eq_add_of_le hfirst
  exact h k (by omega)

lemma lowerChar_capital (hfirst : 0x41 ≤ c.toNat) (hlast : c.toNat ≤ 0x5A) (h : c.toLower.toNat = c.toNat + 32) :
    lowerChar c = c.toLower := by
  rw [lowerChar, (capital_lowered hfirst hlast).1, ← h]
  exact Char.ofNat_toNat _

lemma alike_toLower (c : Char) : Alike c.toLower.toNat c.toNat := by
  rcases toLower_cases c with ⟨h, -⟩ | ⟨hfirst, hlast, h⟩
  · rw [h]
    exact ⟨rfl, rfl, rfl⟩
  · rw [h]
    exact (capital_lowered hfirst hlast).2

@[simp] lemma isBlank_toLower (c : Char) : isBlank c.toLower = isBlank c := (alike_toLower c).2.2

@[simp] lemma lowerChar_toLower (c : Char) : lowerChar c.toLower = lowerChar c := by
  rcases toLower_cases c with ⟨h, -⟩ | ⟨hfirst, hlast, h⟩
  · rw [h]
  · rw [← lowerChar_capital hfirst hlast h, lowerChar_lowerChar]

lemma toLower_eq_iff (h : 0x80 ≤ d.toNat) : c.toLower = d ↔ c = d := by
  rcases toLower_cases c with ⟨hc, -⟩ | ⟨-, hlast, hc⟩
  · rw [hc]
  · constructor
    · rintro rfl
      omega
    · rintro rfl
      omega

lemma meetsCased_map_toLower (t : Text) : meetsCased (t.map Char.toLower) = meetsCased t := by
  have hignorable : isCaseIgnorable ∘ Char.toLower = isCaseIgnorable := funext fun c => (alike_toLower c).2.1
  have hcased : isCased ∘ Char.toLower = isCased := funext fun c => (alike_toLower c).1
  rw [meetsCased, List.dropWhile_map, hignorable, List.head?_map, Option.map_map, hcased]
  rfl

lemma lowerFrom_map_toLower (before t : Text) :
    lowerFrom (before.map Char.toLower) (t.map Char.toLower) = lowerFrom before t := by
  induction t generalizing before with
  | nil => rfl
  | cons c t ih =>
    have hrest := ih (c :: before)
    rw [List.map_cons] at hrest
    rw [List.map_cons, lowerFrom, lowerFrom, hrest, meetsCased_map_toLower, meetsCased_map_toLower,
      lowerChar_toLower]
    simp only [toLower_eq_iff (d := 'Σ') (by decide), toLower_eq_iff (d := 'İ') (by decide)]

lemma lower_map_toLower (t : Text) : lower (t.map Char.toLower) = lower t := lowerFrom_map_toLower [] t

/-- The case of the ASCII letters does not matter. -/
theorem lower_congr (h : t.map Char.toLower = u.map Char.toLower) : lower t = lower u := by
  rw [← lower_map_toLower t, h, lower_map_toLower]

lemma exists_parts (before t : Text) :
    ∃ parts, List.Forall₂ LowersTo t parts ∧ lowerFrom before t = parts.flatten := by
  induction t generalizing before with
  | nil => exact ⟨[], .nil, rfl⟩
  | cons c t ih =>
    obtain ⟨parts, hparts, heq⟩ := ih (c :: before)
    rw [lowerFrom, heq]
    split_ifs with hsigma hfinal hdotted
    · exact ⟨['ς'] :: parts, .cons (hsigma ▸ .final) hparts, rfl⟩
    · exact ⟨['σ'] :: parts, .cons (hsigma ▸ .sigma) hparts, rfl⟩
    · exact ⟨['i', '\u0307'] :: parts, .cons (hdotted ▸ .dotted) hparts, rfl⟩
    · exact ⟨[lowerChar c] :: parts, .cons (.other hsigma hdotted) hparts, rfl⟩

lemma lower_parts (t : Text) : ∃ parts, List.Forall₂ LowersTo t parts ∧ lower t = parts.flatten :=
  exists_parts [] t

lemma LowersTo.isLower (h : LowersTo c p) : ∀ d ∈ p, IsLower d := by
  cases h with
  | sigma => simp only [List.mem_singleton, forall_eq, IsLower]; decide +kernel
  | final => simp only [List.mem_singleton, forall_eq, IsLower]; decide +kernel
  | dotted => simp only [List.mem_cons, List.not_mem_nil, or_false, forall_eq_or_imp, forall_eq, IsLower]; decide +kernel
  | other hsigma hdotted =>
    intro d hd
    rw [List.mem_singleton.mp hd]
    exact isLower_lowerChar hsigma hdotted

lemma isLower_flatten {parts : List Text} (h : List.Forall₂ LowersTo t parts) : ∀ d ∈ parts.flatten, IsLower d := by
  induction h with
  | nil => simp
  | cons hc _ ih =>
    rw [List.flatten_cons]
    intro d hd
    rcases List.mem_append.mp hd with hd | hd
    · exact hc.isLower d hd
    · exact ih d hd

lemma isLower_lower (t : Text) : ∀ c ∈ lower t, IsLower c := by
  obtain ⟨parts, hparts, heq⟩ := lower_parts t
  exact heq ▸ isLower_flatten hparts

lemma lowerFrom_of_isLower (before : Text) (h : ∀ c ∈ t, IsLower c) : lowerFrom before t = t := by
  induction t generalizing before with
  | nil => rfl
  | cons c t ih =>
    obtain ⟨hc, hsigma, hdotted⟩ := h c List.mem_cons_self
    rw [lowerFrom, if_neg hsigma, if_neg hdotted, hc, ih _ fun d hd => h d (List.mem_cons_of_mem _ hd)]
    rfl

lemma lower_of_isLower (h : ∀ c ∈ t, IsLower c) : lower t = t := lowerFrom_of_isLower [] h

theorem lower_lower (t : Text) : lower (lower t) = lower t := lower_of_isLower (isLower_lower t)

lemma lowerChar_of_simple (h : Simple d) : lowerChar d = d := by
  rcases lowerChar_cases d with ⟨heq, -⟩ | hsettled
  · exact heq
  · rcases hsettled.ascii with ⟨hfirst, hlast, -⟩ | ⟨hlarge, -⟩
    · rcases toLower_cases d with ⟨-, hno⟩ | ⟨-, -, hadd⟩
      · exact absurd ⟨hfirst, hlast⟩ hno
      · rw [h.2.2] at hadd
        omega
    · exact absurd h.1 (Nat.not_lt.mpr hlarge)

lemma Simple.of_lowersTo (h : LowersTo c p) (hd : Simple d) (hlast : p.getLast? = some d) : p = [d] ∧ c.toLower = d := by
  cases h with
  | sigma =>
    obtain rfl : 'σ' = d := Option.some.inj hlast
    exact absurd hd.1 (by decide)
  | final =>
    obtain rfl : 'ς' = d := Option.some.inj hlast
    exact absurd hd.1 (by decide)
  | dotted =>
    obtain rfl : '\u0307' = d := Option.some.inj hlast
    exact absurd hd.1 (by decide)
  | other _ _ =>
    obtain rfl : lowerChar c = d := Option.some.inj hlast
    refine ⟨rfl, ?_⟩
    rcases lowerChar_cases c with ⟨heq, -⟩ | hsettled
    · rw [heq] at hd ⊢
      exact hd.2.2
    · rcases hsettled.ascii with ⟨hfirst, hlast, heq⟩ | ⟨-, hlarge | hkelvin⟩
      · rcases toLower_cases c with ⟨-, hno⟩ | ⟨-, -, hadd⟩
        · exact absurd ⟨hfirst, hlast⟩ hno
        · exact Char.toNat_inj.mp (hadd.trans heq.symm)
      · exact absurd hd.1 (Nat.not_lt.mpr hlarge)
      · exact absurd (Char.toNat_inj.mp hkelvin) hd.2.1

lemma Simple.lowersTo (h : LowersTo c p) (hd : Simple c.toLower) : p = [c.toLower] := by
  cases h with
  | sigma => exact absurd hd.1 (by decide)
  | final => exact absurd hd.1 (by decide)
  | dotted => exact absurd hd.1 (by decide)
  | other _ _ => rw [← lowerChar_of_simple hd, lowerChar_toLower]

lemma LowersTo.ne_nil (h : LowersTo c p) : p ≠ [] := by
  cases h <;> simp

lemma concat_suffix_concat : u ++ [d] <:+ t ++ [c] ↔ d = c ∧ u <:+ t := by
  rw [List.suffix_concat_iff]
  constructor
  · rintro (h | ⟨v, h, hv⟩)
    · simp at h
    · obtain ⟨rfl, hdc⟩ := List.append_inj' h rfl
      exact ⟨(List.cons.inj hdc).1, hv⟩
  · rintro ⟨rfl, h⟩
    exact .inr ⟨u, rfl, h⟩

lemma exists_parts_concat {parts : List Text} (h : List.Forall₂ LowersTo (t ++ [c]) parts) :
    ∃ before p, parts = before ++ [p] ∧ List.Forall₂ LowersTo t before ∧ LowersTo c p := by
  induction t generalizing parts with
  | nil =>
    cases h with
    | cons hc hrest =>
      cases hrest
      exact ⟨[], _, rfl, .nil, hc⟩
  | cons b t ih =>
    cases h with
    | cons hb hrest =>
      obtain ⟨before, p, rfl, hbefore, hp⟩ := ih hrest
      exact ⟨_ :: before, p, rfl, .cons hb hbefore, hp⟩

/-- A text of simple characters ends a lower-cased one exactly if it ends the one with small ASCII letters. -/
theorem suffix_lower_iff (h : ∀ d ∈ u, Simple d) : u <:+ lower t ↔ u <:+ t.map Char.toLower := by
  obtain ⟨parts, hparts, heq⟩ := lower_parts t
  rw [heq]
  clear heq
  induction u using List.reverseRecOn generalizing t parts with
  | nil => simp
  | append_singleton u d ih =>
    have hd : Simple d := h d (by simp)
    rcases List.eq_nil_or_concat' t with rfl | ⟨t, c, rfl⟩
    · cases hparts
      simp
    · obtain ⟨before, p, rfl, hbefore, hp⟩ := exists_parts_concat hparts
      obtain ⟨q, e, rfl⟩ := (List.eq_nil_or_concat' p).resolve_left hp.ne_nil
      have hu := ih (fun d hd => h d (by simp [hd])) before hbefore
      rw [List.map_append, List.map_singleton, concat_suffix_concat, List.flatten_append, List.flatten_singleton,
        ← List.append_assoc, concat_suffix_concat]
      -- the last characters agree on both sides, or on none
      constructor
      · rintro ⟨rfl, hsuffix⟩
        obtain ⟨hq, hc⟩ := hd.of_lowersTo hp List.getLast?_concat
        obtain rfl : q = [] := by simpa using hq
        exact ⟨hc.symm, hu.mp (by simpa using hsuffix)⟩
      · rintro ⟨rfl, hsuffix⟩
        obtain ⟨rfl, he⟩ := List.append_inj' ((Simple.lowersTo hp hd).trans (List.nil_append _).symm) rfl
        exact ⟨(List.cons.inj he).1.symm, by simpa using hu.mpr hsuffix⟩

lemma LowersTo.blank (h : LowersTo c p) : ∀ d ∈ p, isBlank d = isBlank c := by
  cases h with
  | sigma => simp only [List.mem_singleton, forall_eq]; decide
  | final => simp only [List.mem_singleton, forall_eq]; decide
  | dotted => simp only [List.mem_cons, List.not_mem_nil, or_false, forall_eq_or_imp, forall_eq]; decide
  | other _ _ =>
    intro d hd
    rw [List.mem_singleton.mp hd, isBlank_lowerChar]

lemma head?_lower_blank (t : Text) : (lower t).head?.any isBlank = t.head?.any isBlank := by
  obtain ⟨parts, hparts, heq⟩ := lower_parts t
  rw [heq]
  cases hparts with
  | nil => rfl
  | @cons c p t parts hp _ =>
    obtain ⟨e, q, rfl⟩ := List.exists_cons_of_ne_nil hp.ne_nil
    exact hp.blank e List.mem_cons_self

lemma getLast?_lower_blank (t : Text) : (lower t).getLast?.any isBlank = t.getLast?.any isBlank := by
  obtain ⟨parts, hparts, heq⟩ := lower_parts t
  rw [heq]
  rcases List.eq_nil_or_concat' t with rfl | ⟨t, c, rfl⟩
  · cases hparts
    rfl
  · obtain ⟨before, p, rfl, -, hp⟩ := exists_parts_concat hparts
    obtain ⟨q, e, rfl⟩ := (List.eq_nil_or_concat' p).resolve_left hp.ne_nil
    rw [List.flatten_append, List.flatten_singleton, ← List.append_assoc, List.getLast?_concat, List.getLast?_concat]
    exact hp.blank e (by simp)

end PackageInstaller.Text
