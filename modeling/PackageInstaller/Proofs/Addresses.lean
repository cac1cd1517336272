import Mathlib.Data.List.DropRight
import PackageInstaller.Lockfile.Pin
import PackageInstaller.Proofs.Casing

/-! The spellings of a URL, and which canonical forms are canonical. Every URL has a stem, which blanks, slashes
and one `.git` may stand around, and its canonical form is the stem in lower case. -/

namespace PackageInstaller

namespace Text

variable {p : Char → Bool} {t before after : Text}

lemma trimRight_append (h : ∀ c ∈ after, p c = true) (ht : t.getLast?.any p = false) : trimRight p (t ++ after) = t := by
  rcases List.eq_nil_or_concat' t with rfl | ⟨t, c, rfl⟩
  · rw [List.nil_append]
    exact List.rdropWhile_eq_nil_iff.mpr h
  · have hc : ¬p c = true := by simpa using ht
    change List.rdropWhile p _ = _
    rw [List.rdropWhile, List.reverse_append, List.dropWhile_append_of_pos (by simpa using h), List.reverse_append]
    simp [hc]

lemma exists_trimRight (p : Char → Bool) (t : Text) :
    ∃ after, t = trimRight p t ++ after ∧ (∀ c ∈ after, p c = true) ∧ (trimRight p t).getLast?.any p = false := by
  induction t using List.reverseRecOn with
  | nil => exact ⟨[], rfl, by simp, rfl⟩
  | append_singleton t c ih =>
    obtain ⟨after, ht, hafter, hlast⟩ := ih
    have hc : trimRight p (t ++ [c]) = if p c = true then trimRight p t else t ++ [c] := List.rdropWhile_concat p t c
    rw [hc]
    split_ifs with h
    · refine ⟨after ++ [c], ?_, ?_, hlast⟩
      · rw [← List.append_assoc, ← ht]
      · simpa [or_imp, forall_and, h] using hafter
    · exact ⟨[], (List.append_nil _).symm, by simp, by simpa using h⟩

lemma trim_around (hbefore : ∀ c ∈ before, p c = true) (hafter : ∀ c ∈ after, p c = true)
    (hhead : t.head?.any p = false) (hlast : t.getLast?.any p = false) : trim p (before ++ t ++ after) = t := by
  rw [trim, List.append_assoc, List.dropWhile_append_of_pos hbefore]
  cases t with
  | nil =>
    rw [List.nil_append, List.dropWhile_eq_nil_iff.mpr hafter]
    rfl
  | cons c t =>
    have hc : ¬p c = true := by simpa using hhead
    rw [List.cons_append, List.dropWhile_cons_of_neg hc, ← List.cons_append]
    exact trimRight_append hafter hlast

lemma exists_trim (p : Char → Bool) (t : Text) : ∃ before after, t = before ++ trim p t ++ after ∧
    (∀ c ∈ before, p c = true) ∧ (∀ c ∈ after, p c = true) ∧
      (trim p t).head?.any p = false ∧ (trim p t).getLast?.any p = false := by
  obtain ⟨after, ht, hafter, hlast⟩ := exists_trimRight p (t.dropWhile p)
  refine ⟨t.takeWhile p, after, ?_, fun c hc => ?_, hafter, ?_, hlast⟩
  · rw [List.append_assoc, trim, ← ht, List.takeWhile_append_dropWhile]
  · exact List.mem_takeWhile_imp hc
  · rw [trim]
    cases h : trimRight p (t.dropWhile p) with
    | nil => rfl
    | cons c rest =>
      rw [h] at ht
      have hc := List.head?_dropWhile_not p t
      rw [ht] at hc
      simpa using hc

lemma head?_append_any (ht : t.head?.any p = false) (hafter : after.head?.any p = false) :
    (t ++ after).head?.any p = false := by
  cases t with
  | nil => exact hafter
  | cons c t => exact ht

lemma getLast?_append_any (ht : t.getLast?.any p = false) (hafter : after.getLast?.any p = false) :
    (t ++ after).getLast?.any p = false := by
  rcases List.eq_nil_or_concat' after with rfl | ⟨after, c, rfl⟩
  · rwa [List.append_nil]
  · rwa [← List.append_assoc, List.getLast?_concat, ← List.getLast?_concat (l := after)]

lemma head?_map_toLower_blank (t : Text) : (t.map Char.toLower).head?.any isBlank = t.head?.any isBlank := by
  rw [List.head?_map]
  cases t.head? <;> simp

lemma getLast?_map_toLower_blank (t : Text) : (t.map Char.toLower).getLast?.any isBlank = t.getLast?.any isBlank := by
  rw [List.getLast?_map]
  cases t.getLast? <;> simp

lemma toLower_eq_slash {c : Char} : c.toLower = '/' ↔ c = '/' := by
  constructor
  · intro h
    rcases toLower_cases c with ⟨heq, -⟩ | ⟨hfirst, -, hadd⟩
    · exact heq.symm.trans h
    · rw [h] at hadd
      change 0x2F = _ at hadd
      omega
  · rintro rfl
    rfl

lemma getLast?_map_toLower_slash : (t.map Char.toLower).getLast? = some '/' ↔ t.getLast? = some '/' := by
  rw [List.getLast?_map, Option.map_eq_some_iff]
  simp only [toLower_eq_slash, exists_eq_right]

lemma getLast?_lower_slash : (lower t).getLast? = some '/' ↔ t.getLast? = some '/' := by
  have h := suffix_lower_iff (u := ['/']) (t := t) (by simp only [List.mem_singleton, forall_eq, Simple]; decide)
  rw [List.singleton_suffix_iff_getLast?_eq_some, List.singleton_suffix_iff_getLast?_eq_some] at h
  exact h.trans getLast?_map_toLower_slash

end Text

namespace Repository

open Text

/-- A URL that has nothing around it that a canonical form leaves out. -/
structure Bare (u : Text) : Prop where
  head : u.head?.any isBlank = false
  last : u.getLast?.any isBlank = false
  slash : u.getLast? ≠ some '/'
  git : ¬gitSuffix <:+ u.map Char.toLower

/-- A spelling of a URL: its ASCII letters in any case, `.git` behind it in any case or not, then slashes, and
blanks around it all. -/
inductive Spells (u : Text) : Text → Prop
  | mk {before stem mark slashes after : Text} (hbefore : ∀ c ∈ before, isBlank c = true)
    (hstem : stem.map Char.toLower = u.map Char.toLower) (hmark : mark = [] ∨ mark.map Char.toLower = gitSuffix)
    (hslashes : ∀ c ∈ slashes, c = '/') (hafter : ∀ c ∈ after, isBlank c = true) :
    Spells u (before ++ (stem ++ mark ++ slashes) ++ after)

/-- Two texts are one text, or two spellings of one bare URL. -/
def Respells (v w : Text) : Prop := v = w ∨ ∃ u, Bare u ∧ Spells u v ∧ Spells u w

/-- A URL as it is taken apart: nothing more can be left out before its slashes, nor behind them. -/
structure Parts (url before stem mark slashes after : Text) : Prop where
  text : url = before ++ (stem ++ mark ++ slashes) ++ after
  before_blank : ∀ c ∈ before, isBlank c = true
  after_blank : ∀ c ∈ after, isBlank c = true
  head : (stem ++ mark ++ slashes).head?.any isBlank = false
  last : (stem ++ mark ++ slashes).getLast?.any isBlank = false
  slashes_only : ∀ c ∈ slashes, c = '/'
  slash : (stem ++ mark).getLast? ≠ some '/'
  mark : mark.map Char.toLower = gitSuffix ∨ mark = [] ∧ ¬gitSuffix <:+ stem.map Char.toLower

variable {u v w url before stem mark slashes after : Text}

lemma simple_gitSuffix : ∀ c ∈ gitSuffix, Simple c := by
  simp only [gitSuffix, List.mem_cons, List.not_mem_nil, or_false, forall_eq_or_imp, forall_eq, Simple]
  decide

lemma gitSuffix_isSuffixOf_lower (t : Text) :
    gitSuffix.isSuffixOf (lower t) = true ↔ gitSuffix <:+ t.map Char.toLower := by
  rw [List.isSuffixOf_iff_suffix, suffix_lower_iff simple_gitSuffix]

lemma Parts.canonicalUrl (h : Parts url before stem mark slashes after) : canonicalUrl url = lower stem := by
  have hstrip : strip url = stem ++ mark ++ slashes := by
    rw [h.text]
    exact trim_around h.before_blank h.after_blank h.head h.last
  have hbare : (strip url).trimRight (· = '/') = stem ++ mark := by
    rw [hstrip]
    refine trimRight_append (by simpa using h.slashes_only) ?_
    have hslash := h.slash
    cases hlast : (stem ++ mark).getLast? with
    | none => rfl
    | some c => simpa [hlast] using hslash
  rw [Repository.canonicalUrl, hbare]
  simp only [gitSuffix_isSuffixOf_lower]
  rcases h.mark with hmark | ⟨rfl, hgit⟩
  · have hlength : mark.length = 4 := by
      rw [← List.length_map Char.toLower, hmark]
      rfl
    rw [if_pos (by rw [List.map_append, hmark]; exact List.suffix_append _ _), dropRight, List.length_append, hlength,
      Nat.add_sub_cancel, List.take_left]
  · rw [List.append_nil, if_neg hgit]

lemma exists_parts (url : Text) : ∃ before stem mark slashes after, Parts url before stem mark slashes after := by
  obtain ⟨before, after, htext, hbefore, hafter, hhead, hlast⟩ := exists_trim isBlank url
  obtain ⟨slashes, hslashes, honly, hslash⟩ := exists_trimRight (· = '/') (trim isBlank url)
  generalize trim isBlank url = middle at *
  generalize trimRight (· = '/') middle = bare at *
  have hsolid : bare.getLast? ≠ some '/' := by
    rintro h
    simp [h] at hslash
  by_cases hgit : gitSuffix <:+ bare.map Char.toLower
  · obtain ⟨small, hsmall⟩ := hgit
    obtain ⟨stem, mark, rfl, -, hmark⟩ := List.map_eq_append_iff.mp hsmall.symm
    refine ⟨before, stem, mark, slashes, after, ?_, hbefore, hafter, ?_, ?_, by simpa using honly, hsolid, .inl hmark⟩
    · rw [← hslashes]
      exact htext
    · rw [← hslashes]
      exact hhead
    · rw [← hslashes]
      exact hlast
  · refine ⟨before, bare, [], slashes, after, ?_, hbefore, hafter, ?_, ?_, by simpa using honly, ?_, .inr ⟨rfl, hgit⟩⟩
    · rw [List.append_nil, ← hslashes]
      exact htext
    · rw [List.append_nil, ← hslashes]
      exact hhead
    · rw [List.append_nil, ← hslashes]
      exact hlast
    · rwa [List.append_nil]

lemma Spells.exists_parts (hu : Bare u) (hv : Spells u v) :
    ∃ before stem mark slashes after, Parts v before stem mark slashes after ∧ stem.map Char.toLower = u.map Char.toLower := by
  cases hv with
  | @mk before stem mark slashes after hbefore hstem hmark hslashes hafter =>
    have hhead : stem.head?.any isBlank = false := by
      rw [← head?_map_toLower_blank, hstem, head?_map_toLower_blank]
      exact hu.head
    have hlast : stem.getLast?.any isBlank = false := by
      rw [← getLast?_map_toLower_blank, hstem, getLast?_map_toLower_blank]
      exact hu.last
    have hmarkHead : mark.head?.any isBlank = false := by
      rw [← head?_map_toLower_blank]
      rcases hmark with rfl | h
      · rfl
      · rw [h]
        decide
    have hmarkLast : mark.getLast?.any isBlank = false := by
      rw [← getLast?_map_toLower_blank]
      rcases hmark with rfl | h
      · rfl
      · rw [h]
        decide
    obtain ⟨n, rfl⟩ : ∃ n, slashes = List.replicate n '/' := ⟨_, List.eq_replicate_iff.mpr ⟨rfl, hslashes⟩⟩
    have hslash : (stem ++ mark).getLast? ≠ some '/' := by
      intro h
      rw [← getLast?_map_toLower_slash, List.map_append, hstem] at h
      rcases hmark with rfl | hmark
      · rw [List.map_nil, List.append_nil, getLast?_map_toLower_slash] at h
        exact hu.slash h
      · rw [hmark] at h
        simp [gitSuffix] at h
    refine ⟨before, stem, mark, _, after, ⟨rfl, hbefore, hafter, ?_, ?_, hslashes, hslash, ?_⟩, hstem⟩
    · refine head?_append_any (head?_append_any hhead hmarkHead) ?_
      cases n with
      | zero => rfl
      | succ n => exact (by decide : isBlank '/' = false)
    · refine getLast?_append_any (getLast?_append_any hlast hmarkLast) ?_
      cases n with
      | zero => rfl
      | succ n =>
        rw [List.getLast?_replicate, if_neg (Nat.succ_ne_zero n)]
        exact (by decide : isBlank '/' = false)
    · rcases hmark with rfl | hmark
      · exact .inr ⟨rfl, by rw [hstem]; exact hu.git⟩
      · exact .inl hmark

/-- All spellings of a bare URL have its canonical form. -/
theorem canonicalUrl_spelled (hu : Bare u) (hv : Spells u v) : canonicalUrl v = lower u := by
  obtain ⟨before, stem, mark, slashes, after, hparts, hstem⟩ := hv.exists_parts hu
  rw [hparts.canonicalUrl, lower_congr hstem]

lemma Respells.canonicalUrl (h : Respells v w) : canonicalUrl v = canonicalUrl w := by
  rcases h with rfl | ⟨u, hu, hv, hw⟩
  · rfl
  · rw [canonicalUrl_spelled hu hv, canonicalUrl_spelled hu hw]

lemma spells_self (u : Text) : Spells u u := by
  have h := @Spells.mk u [] u [] [] [] (by simp) rfl (.inl rfl) (by simp) (by simp)
  simpa using h

lemma bare_lower : Bare (lower u) ↔ Bare u := by
  have hgit : gitSuffix <:+ (lower u).map Char.toLower ↔ gitSuffix <:+ u.map Char.toLower := by
    rw [← suffix_lower_iff simple_gitSuffix, lower_lower, suffix_lower_iff simple_gitSuffix]
  constructor
  · rintro ⟨hhead, hlast, hslash, hno⟩
    refine ⟨?_, ?_, ?_, hgit.not.mp hno⟩
    · rwa [← head?_lower_blank]
    · rwa [← getLast?_lower_blank]
    · rwa [ne_eq, ← getLast?_lower_slash]
  · rintro ⟨hhead, hlast, hslash, hno⟩
    refine ⟨?_, ?_, ?_, hgit.not.mpr hno⟩
    · rwa [head?_lower_blank]
    · rwa [getLast?_lower_blank]
    · rwa [ne_eq, getLast?_lower_slash]

lemma Parts.bare_of_canonicalUrl_eq (h : Parts url before stem mark slashes after) (hurl : ∀ c ∈ url, IsLower c)
    (heq : Repository.canonicalUrl url = url) : Bare url := by
  have hstem : stem = url := by
    rw [← heq, h.canonicalUrl]
    refine (lower_of_isLower fun c hc => hurl c ?_).symm
    rw [h.text]
    simp [hc]
  subst hstem
  have hlength := congrArg List.length h.text
  simp only [List.length_append] at hlength
  obtain rfl : before = [] := List.eq_nil_of_length_eq_zero (by omega)
  obtain rfl : mark = [] := List.eq_nil_of_length_eq_zero (by omega)
  obtain rfl : slashes = [] := List.eq_nil_of_length_eq_zero (by omega)
  refine ⟨by simpa using h.head, by simpa using h.last, by simpa using h.slash, ?_⟩
  rcases h.mark with hmark | ⟨-, hgit⟩
  · simp [gitSuffix] at hmark
  · exact hgit

lemma Parts.spells (h : Parts url before stem mark slashes after) : Spells stem url := by
  rw [h.text]
  exact .mk h.before_blank rfl (h.mark.symm.imp_left And.left) h.slashes_only h.after_blank

lemma kept_iff_bare (url : Text) :
    Repository.canonicalUrl (Repository.canonicalUrl url) = Repository.canonicalUrl url ↔
      Bare (Repository.canonicalUrl url) := by
  have hlower : ∀ c ∈ Repository.canonicalUrl url, IsLower c := isLower_lower _
  constructor
  · intro h
    obtain ⟨before, stem, mark, slashes, after, hparts⟩ := exists_parts (Repository.canonicalUrl url)
    exact hparts.bare_of_canonicalUrl_eq hlower h
  · intro h
    rw [canonicalUrl_spelled h (spells_self _), lower_of_isLower hlower]

lemma bare_canonicalUrl_iff (url : Text) : Bare (Repository.canonicalUrl url) ↔ ∃ u, Bare u ∧ Spells u url := by
  constructor
  · intro h
    obtain ⟨before, stem, mark, slashes, after, hparts⟩ := exists_parts url
    rw [hparts.canonicalUrl] at h
    exact ⟨stem, bare_lower.mp h, hparts.spells⟩
  · rintro ⟨u, hu, hspells⟩
    rw [canonicalUrl_spelled hu hspells]
    exact bare_lower.mpr hu

lemma countNew_one (pin other : Lockfile.Pin) : Lockfile.countNew [pin] [other] = 0 ↔ other.key = pin.key := by
  by_cases h : other.key = pin.key <;> simp [Lockfile.countNew, Lockfile.newKeys, h]

/-- A canonical form is canonical, so that the form is the same package as the URL, exactly for the spellings of
bare URLs: where what is left of a URL without the blanks around it, its slashes and then one `.git` ends neither in
a blank nor in a slash nor in another `.git`. -/
theorem canonicalUrl_kept_iff (url : Text) :
    (Repository.canonicalUrl (Repository.canonicalUrl url) = Repository.canonicalUrl url ↔ ∃ u, Bare u ∧ Spells u url) ∧
    (Repository.canonicalUrl (Repository.canonicalUrl url) = Repository.canonicalUrl url ↔
      Bare (Repository.canonicalUrl url)) ∧
    ∀ name other, Lockfile.countNew [⟨url, name⟩] [⟨Repository.canonicalUrl url, other⟩] = 0 ↔
      ∃ u, Bare u ∧ Spells u url := by
  have hkept := kept_iff_bare url
  have hspelled := hkept.trans (bare_canonicalUrl_iff url)
  refine ⟨hspelled, hkept, fun name other => ?_⟩
  rw [countNew_one]
  exact hspelled

/-- A slash or a second `.git` before the `.git` is left in a canonical form, and would be left out of another. -/
theorem not_canonicalUrl_kept :
    ¬∀ url, Repository.canonicalUrl (Repository.canonicalUrl url) = Repository.canonicalUrl url := by
  intro h
  have hkept := h "https://github.com/vapor/console/.git".toList
  revert hkept
  decide +kernel

end Repository

end PackageInstaller
