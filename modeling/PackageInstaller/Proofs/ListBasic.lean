import Mathlib.Data.List.Basic
import Mathlib.Data.List.Forall2

/-! Lists that are cut in two ways, one of them at a mark, and lists that are related member by member. -/

namespace PackageInstaller

section Cuts

variable {α : Type} {p : α → Bool} {a b r s x y : List α} {o o' : α}

/-- A mark within a list of two parts stands in the second of them or in the first. -/
lemma append_eq_append_cons (h : s ++ r = a ++ o :: x) :
    (∃ f, a = s ++ f ∧ r = f ++ o :: x) ∨ ∃ f, s = a ++ o :: f ∧ x = f ++ r := by
  rcases List.append_eq_append_iff.mp h with ⟨f, ha, hr⟩ | ⟨f, hs, hx⟩
  · exact .inl ⟨f, ha, hr⟩
  · cases f with
    | nil => exact .inl ⟨[], by simpa using hs.symm, by simpa using hx.symm⟩
    | cons c f =>
      obtain ⟨rfl, hrest⟩ := List.cons.inj hx
      exact .inr ⟨f, hs, hrest⟩

/-- What has no mark ends before the mark. -/
lemma append_eq_append_cons_of_not_mem (h : s ++ r = a ++ o :: x) (ho : o ∉ s) :
    ∃ f, a = s ++ f ∧ r = f ++ o :: x := by
  rcases append_eq_append_cons h with hlater | ⟨f, rfl, -⟩
  · exact hlater
  · simp at ho

/-- Two marks of a list are one, or one of them stands before the other. -/
lemma append_cons_eq_append_cons (h : a ++ o :: x = b ++ o' :: y) : (a = b ∧ o = o' ∧ x = y) ∨
    (∃ m, b = a ++ o :: m ∧ x = m ++ o' :: y) ∨ ∃ m, a = b ++ o' :: m ∧ y = m ++ o :: x := by
  rcases append_eq_append_cons h with ⟨f, rfl, hf⟩ | hearlier
  · cases f with
    | nil =>
      obtain ⟨rfl, rfl⟩ := List.cons.inj hf
      exact .inl ⟨by simp, rfl, rfl⟩
    | cons c m =>
      obtain ⟨rfl, hm⟩ := List.cons.inj hf
      exact .inr (.inl ⟨m, rfl, hm⟩)
  · exact .inr (.inr hearlier)

lemma takeWhile_append_stop (ho : p o = false) (a x : List α) : (a ++ o :: x).takeWhile p = a.takeWhile p := by
  induction a with
  | nil => simp [ho]
  | cons c a ih => simp only [List.cons_append, List.takeWhile_cons, ih]

lemma dropWhile_append_stop (ho : p o = false) (a x : List α) :
    (a ++ o :: x).dropWhile p = a.dropWhile p ++ o :: x := by
  induction a with
  | nil => simp [ho]
  | cons c a ih =>
    simp only [List.cons_append, List.dropWhile_cons, ih]
    split_ifs <;> rfl

end Cuts

section Related

variable {α β γ : Type} {R : α → β → Prop} {xs : List α} {ys : List β}

lemma exists_forall₂ : (∃ ys, List.Forall₂ R xs ys) ↔ ∀ x ∈ xs, ∃ y, R x y := by
  induction xs with
  | nil => simp
  | cons x xs ih =>
    rw [List.forall_mem_cons, ← ih]
    simp only [List.forall₂_cons_left_iff]
    constructor
    · rintro ⟨-, y, ys, hy, hys, rfl⟩
      exact ⟨⟨y, hy⟩, ys, hys⟩
    · rintro ⟨⟨y, hy⟩, ys, hys⟩
      exact ⟨_, y, ys, hy, hys, rfl⟩

lemma forall₂_split {x : α} {us : List α} (h : List.Forall₂ R (xs ++ x :: us) ys) :
    ∃ xs' x' us', ys = xs' ++ x' :: us' ∧ List.Forall₂ R xs xs' ∧ R x x' ∧ List.Forall₂ R us us' := by
  induction xs generalizing ys with
  | nil =>
    obtain ⟨x', us', hx, hus, rfl⟩ := List.forall₂_cons_left_iff.mp h
    exact ⟨[], x', us', rfl, .nil, hx, hus⟩
  | cons w xs ih =>
    obtain ⟨w', ys, hw, hys, rfl⟩ := List.forall₂_cons_left_iff.mp h
    obtain ⟨xs', x', us', rfl, hxs, hx, hus⟩ := ih hys
    exact ⟨w' :: xs', x', us', rfl, .cons hw hxs, hx, hus⟩

lemma exists_forall₂_right {x : α} (h : List.Forall₂ R xs ys) (hx : x ∈ xs) : ∃ y ∈ ys, R x y := by
  obtain ⟨us, vs, rfl⟩ := List.append_of_mem hx
  obtain ⟨us', y, vs', rfl, -, hy, -⟩ := forall₂_split h
  exact ⟨y, by simp, hy⟩

lemma forall₂_mem (h : List.Forall₂ R xs ys) : List.Forall₂ (fun x y => x ∈ xs ∧ y ∈ ys ∧ R x y) xs ys := by
  have hright := ((List.forall₂_and_left _ _).mpr ⟨fun y hy => hy, h.flip⟩).flip
  exact (List.forall₂_and_left _ _).mpr ⟨fun x hx => hx, hright⟩

lemma forall₂_comp {S : β → γ → Prop} {T : α → γ → Prop} {zs : List γ} (h : ∀ x y z, R x y → S y z → T x z)
    (hxy : List.Forall₂ R xs ys) (hyz : List.Forall₂ S ys zs) : List.Forall₂ T xs zs := by
  induction hxy generalizing zs with
  | nil =>
    cases hyz
    exact .nil
  | cons hr _ ih =>
    cases hyz with
    | cons hs hrest => exact .cons (h _ _ _ hr hs) (ih hrest)

lemma forall₂_trans {S : β → γ → Prop} {R : α → γ → Prop} {F : γ → γ → Prop} {zs : List γ}
    (h : List.Forall₂ (fun x y => ∀ z, R x z → ∃ z', S y z' ∧ F z z') xs ys) (hz : List.Forall₂ R xs zs) :
    ∃ zs', List.Forall₂ S ys zs' ∧ List.Forall₂ F zs zs' := by
  induction h generalizing zs with
  | nil =>
    cases hz
    exact ⟨[], .nil, .nil⟩
  | cons hxy _ ih =>
    cases hz with
    | cons hx hz =>
      obtain ⟨z', hy, hf⟩ := hxy _ hx
      obtain ⟨zs', hys, hfs⟩ := ih hz
      exact ⟨z' :: zs', .cons hy hys, .cons hf hfs⟩

lemma map_eq_of_forall₂ {S : α → β → Prop} {f : β → γ} {zs : List β}
    (hf : ∀ x y z, R x y → S x z → f y = f z) (hr : List.Forall₂ R xs ys) (hs : List.Forall₂ S xs zs) :
    ys.map f = zs.map f := by
  induction hr generalizing zs with
  | nil =>
    cases hs
    rfl
  | cons h _ ih =>
    cases hs with
    | cons h' hs => rw [List.map_cons, List.map_cons, hf _ _ _ h h', ih hs]

end Related

end PackageInstaller
