import Mathlib.Data.List.Basic
import Mathlib.Logic.Relation
import PackageInstaller.Proofs.ListBasic
import PackageInstaller.Text.Classes

/-! Texts that pieces were put into. A piece goes between two characters, or between the brackets of an empty
list whose blanks make way for it. Without the pieces that came in, and without those blanks, the text is
what it was. -/

namespace PackageInstaller.Text

/-- `u` is `t` with the piece `p` put in. -/
inductive Receives (p : Text) : Text → Text → Prop
  | between (a b : Text) : Receives p (a ++ b) (a ++ p ++ b)
  | filled (a b : Text) {w : Text} : (∀ c ∈ w, isBlank c = true) →
      Receives p (a ++ '[' :: (w ++ ']' :: b)) (a ++ '[' :: (p ++ ']' :: b))

/-- `u` comes from `t` by putting in pieces, one after another, all of them with the property. -/
def Extends (P : Text → Prop) : Text → Text → Prop := Relation.ReflTransGen fun t u => ∃ p, P p ∧ Receives p t u

def firstMark (t : Text) : Option Char := t.find? fun c => !isBlank c

/-- A piece with something to see, which does not begin with a closing bracket or end with an opening one. -/
structure Solid (p : Text) : Prop where
  opens : ∃ c, firstMark p = some c ∧ c ≠ ']'
  closes : ∃ c, firstMark p.reverse = some c ∧ c ≠ '['

/-- `u` is `t` with solid pieces at places of their own, and with some empty lists filled by one. -/
inductive Grown : Text → Text → Prop
  | nil : Grown [] []
  | keep (c : Char) {t u : Text} : Grown t u → Grown (c :: t) (c :: u)
  | put {p t u : Text} : Solid p → Grown t u → Grown t (p ++ u)
  | fill {w p t u : Text} : (∀ c ∈ w, isBlank c = true) → Solid p → Grown t u →
      Grown ('[' :: (w ++ ']' :: t)) ('[' :: (p ++ ']' :: u))

/-- `u` is `t` without the blanks of some empty lists. -/
inductive Thinned : Text → Text → Prop
  | nil : Thinned [] []
  | keep (c : Char) {t u : Text} : Thinned t u → Thinned (c :: t) (c :: u)
  | emptied {w t u : Text} : (∀ c ∈ w, isBlank c = true) → Thinned t u →
      Thinned ('[' :: (w ++ ']' :: t)) ('[' :: ']' :: u)

variable {p q t u v w a b x y : Text} {c d : Char}

lemma firstMark_append (t u : Text) : firstMark (t ++ u) = (firstMark t).or (firstMark u) := List.find?_append

lemma firstMark_append_cons (h : isBlank c = false) (t u : Text) :
    firstMark (t ++ c :: u) = (firstMark t).or (some c) := by
  rw [firstMark_append, firstMark, firstMark, List.find?_cons_of_pos (by simp [h])]

lemma firstMark_blank (h : ∀ c ∈ w, isBlank c = true) : firstMark w = none := by
  simpa [firstMark] using h

lemma blank_reverse (h : ∀ c ∈ w, isBlank c = true) : ∀ c ∈ w.reverse, isBlank c = true :=
  fun c hc => h c (List.mem_reverse.mp hc)

lemma blank_left (h : ∀ c ∈ v ++ w, isBlank c = true) : ∀ c ∈ v, isBlank c = true :=
  fun c hc => h c (List.mem_append_left _ hc)

/-- A piece put in shows first only where nothing shows before it. -/
lemma firstMark_insert (h : ∃ c, firstMark (a ++ b) = some c ∧ c ≠ d) (hp : ∃ c, firstMark p = some c ∧ c ≠ d) :
    ∃ c, firstMark (a ++ p ++ b) = some c ∧ c ≠ d := by
  rw [firstMark_append, firstMark_append]
  rw [firstMark_append] at h
  cases ha : firstMark a with
  | none =>
    obtain ⟨c, hc, hd⟩ := hp
    exact ⟨c, by rw [hc]; rfl, hd⟩
  | some e =>
    rw [ha] at h
    exact h

lemma solid_of_ends (hc : isBlank c = false ∧ c ≠ ']') (hd : isBlank d = false ∧ d ≠ '[') (t : Text) :
    Solid (c :: (t ++ [d])) := by
  refine ⟨⟨c, firstMark_append_cons hc.1 [] _, hc.2⟩, d, ?_, hd.2⟩
  rw [List.reverse_cons, List.reverse_append, List.append_assoc]
  exact firstMark_append_cons hd.1 [] _

lemma Solid.insert (h : Solid (a ++ b)) (hp : Solid p) : Solid (a ++ p ++ b) := by
  refine ⟨firstMark_insert h.opens hp.opens, ?_⟩
  have hc := h.closes
  rw [List.reverse_append] at hc
  rw [List.reverse_append, List.reverse_append, ← List.append_assoc]
  exact firstMark_insert hc hp.closes

/-- What stands between two brackets of a piece does not show at its ends. -/
lemma Solid.exchange (h : Solid (a ++ '[' :: (w ++ ']' :: b))) (p : Text) :
    Solid (a ++ '[' :: (p ++ ']' :: b)) := by
  have hfirst : ∀ w, firstMark (a ++ '[' :: (w ++ ']' :: b)) = (firstMark a).or (some '[') :=
    fun w => firstMark_append_cons (by decide) _ _
  have hlast : ∀ w, firstMark (a ++ '[' :: (w ++ ']' :: b)).reverse = (firstMark b.reverse).or (some ']') := by
    intro w
    have hrev : (a ++ '[' :: (w ++ ']' :: b)).reverse = b.reverse ++ ']' :: (w.reverse ++ '[' :: a.reverse) := by simp
    rw [hrev, firstMark_append_cons (by decide)]
  have hopens := h.opens
  have hcloses := h.closes
  rw [hfirst w] at hopens
  rw [hlast w] at hcloses
  exact ⟨by rw [hfirst]; exact hopens, by rw [hlast]; exact hcloses⟩

lemma Solid.ne_closer (h : Solid p) (hw : ∀ c ∈ w, isBlank c = true) (t u : Text) : p ++ u ≠ w ++ ']' :: t := by
  intro he
  obtain ⟨c, hc, hne⟩ := h.opens
  have hmark := congrArg firstMark he
  rw [firstMark_append, firstMark_append_cons (by decide), hc, firstMark_blank hw] at hmark
  exact hne (Option.some.inj hmark)

lemma Solid.ne_opener (h : Solid (a ++ '[' :: w)) : ¬∀ c ∈ w, isBlank c = true := by
  intro hw
  obtain ⟨c, hc, hne⟩ := h.closes
  rw [List.reverse_append, List.reverse_cons, List.append_assoc, List.singleton_append,
    firstMark_append_cons (by decide), firstMark_blank (blank_reverse hw)] at hc
  exact hne (Option.some.inj hc).symm

/-- An empty list stands within a solid piece or after it. -/
lemma Solid.split (h : Solid q) (hw : ∀ c ∈ w, isBlank c = true) (he : a ++ '[' :: (w ++ ']' :: b) = q ++ u) :
    (∃ x, a = q ++ x ∧ u = x ++ '[' :: (w ++ ']' :: b)) ∨ ∃ y, q = a ++ '[' :: (w ++ ']' :: y) ∧ b = y ++ u := by
  rcases append_eq_append_cons he.symm with hafter | ⟨f, rfl, hf⟩
  · exact .inl hafter
  · rcases append_eq_append_cons hf.symm with ⟨v, rfl, -⟩ | ⟨y, rfl, rfl⟩
    · exact absurd (blank_left hw) h.ne_opener
    · exact .inr ⟨y, rfl, rfl⟩

lemma Grown.refl (t : Text) : Grown t t := by
  induction t with
  | nil => exact .nil
  | cons c t ih => exact .keep c ih

lemma Grown.between (h : Grown t (a ++ b)) (hp : Solid p) : Grown t (a ++ p ++ b) := by
  generalize hu : a ++ b = u at h
  induction h generalizing a with
  | nil =>
    obtain ⟨rfl, rfl⟩ := List.append_eq_nil_iff.mp hu
    exact .put hp .nil
  | @keep c t u h ih =>
    cases a with
    | nil =>
      obtain rfl : b = c :: u := hu
      exact .put hp (.keep c h)
    | cons d a =>
      obtain ⟨rfl, hrest⟩ := List.cons.inj hu
      exact .keep d (ih hrest)
  | @put q t u hq h ih =>
    rcases List.append_eq_append_iff.mp hu with ⟨v, rfl, rfl⟩ | ⟨v, rfl, hv⟩
    · rw [← List.append_assoc]
      exact .put (hq.insert hp) h
    · rw [List.append_assoc, List.append_assoc, ← List.append_assoc v]
      exact .put hq (ih hv.symm)
  | @fill w q t u hw hq h ih =>
    cases a with
    | nil =>
      obtain rfl : b = '[' :: (q ++ ']' :: u) := hu
      exact .put hp (.fill hw hq h)
    | cons d a =>
      obtain ⟨rfl, hrest⟩ := List.cons.inj hu
      rcases append_eq_append_cons hrest with ⟨v, rfl, rfl⟩ | ⟨v, rfl, hlater⟩
      · have hgrown := Grown.fill hw (hq.insert hp) h
        simpa using hgrown
      · have hgrown := Grown.fill hw hq (ih hlater.symm)
        simpa using hgrown

/-- Blanks before a closing bracket do not come from a piece. -/
lemma Grown.blanks (h : Grown t (w ++ ']' :: b)) (hw : ∀ c ∈ w, isBlank c = true) :
    ∃ t', t = w ++ ']' :: t' ∧ Grown t' b := by
  generalize hu : w ++ ']' :: b = u at h
  induction h generalizing w with
  | nil => simp at hu
  | @keep c t u h ih =>
    cases w with
    | nil =>
      obtain ⟨rfl, rfl⟩ := List.cons.inj hu
      exact ⟨t, rfl, h⟩
    | cons d w =>
      obtain ⟨rfl, hrest⟩ := List.cons.inj hu
      obtain ⟨t', rfl, hg⟩ := ih (fun c hc => hw c (List.mem_cons_of_mem _ hc)) hrest
      exact ⟨t', rfl, hg⟩
  | put hq => exact absurd hu.symm (hq.ne_closer hw _ _)
  | fill =>
    cases w with
    | nil => simp at hu
    | cons d w =>
      obtain ⟨rfl, -⟩ := List.cons.inj hu
      exact absurd (hw '[' List.mem_cons_self) (by decide)

lemma Grown.filled (h : Grown t (a ++ '[' :: (w ++ ']' :: b))) (hw : ∀ c ∈ w, isBlank c = true) (hp : Solid p) :
    Grown t (a ++ '[' :: (p ++ ']' :: b)) := by
  generalize hu : a ++ '[' :: (w ++ ']' :: b) = u at h
  induction h generalizing a with
  | nil => simp at hu
  | @keep c t u h ih =>
    cases a with
    | nil =>
      obtain ⟨rfl, rfl⟩ := List.cons.inj hu
      obtain ⟨t', rfl, hg⟩ := h.blanks hw
      exact .fill hw hp hg
    | cons d a =>
      obtain ⟨rfl, hrest⟩ := List.cons.inj hu
      exact .keep d (ih hrest)
  | @put q t u hq h ih =>
    rcases hq.split hw hu with ⟨x, rfl, hx⟩ | ⟨y, rfl, rfl⟩
    · rw [List.append_assoc]
      exact .put hq (ih hx.symm)
    · have hgrown := Grown.put (hq.exchange p) h
      simpa using hgrown
  | @fill v q t u hv hq h ih =>
    cases a with
    | nil =>
      obtain ⟨-, hrest⟩ := List.cons.inj hu
      exact absurd hrest.symm (hq.ne_closer hw _ _)
    | cons d a =>
      obtain ⟨rfl, hrest⟩ := List.cons.inj hu
      rcases hq.split hw hrest with ⟨x, rfl, hx⟩ | ⟨y, rfl, rfl⟩
      · cases x with
        | nil => simp at hx
        | cons e x =>
          obtain ⟨rfl, hlater⟩ := List.cons.inj hx
          have hgrown := Grown.fill hv hq (ih hlater.symm)
          simpa using hgrown
      · have hgrown := Grown.fill hv (hq.exchange p) h
        simpa using hgrown

lemma Grown.receives (h : Grown t u) (hp : Solid p) (hr : Receives p u v) : Grown t v := by
  cases hr with
  | between a b => exact h.between hp
  | filled a b hw => exact h.filled hw hp

lemma Extends.mono {P Q : Text → Prop} (hPQ : ∀ p, P p → Q p) (h : Extends P t u) : Extends Q t u := by
  induction h with
  | refl => exact .refl
  | tail _ hstep ih =>
    obtain ⟨p, hp, hr⟩ := hstep
    exact ih.tail ⟨p, hPQ p hp, hr⟩

lemma Extends.grown {P : Text → Prop} (h : Extends P t u) (hP : ∀ p, P p → Solid p) : Grown t u := by
  induction h with
  | refl => exact .refl t
  | tail _ hstep ih =>
    obtain ⟨p, hp, hr⟩ := hstep
    exact ih.receives (hP p hp) hr

theorem Grown.kept (h : Grown t u) : ∃ kept, Thinned t kept ∧ List.Sublist kept u := by
  induction h with
  | nil => exact ⟨[], .nil, .slnil⟩
  | keep c _ ih =>
    obtain ⟨kept, ht, hs⟩ := ih
    exact ⟨c :: kept, .keep c ht, hs.cons_cons c⟩
  | @put p t u _ _ ih =>
    obtain ⟨kept, ht, hs⟩ := ih
    exact ⟨kept, ht, hs.trans (List.sublist_append_right p u)⟩
  | @fill w p t u hw _ _ ih =>
    obtain ⟨kept, ht, hs⟩ := ih
    exact ⟨_, .emptied hw ht, ((hs.cons_cons ']').trans (List.sublist_append_right p _)).cons_cons '['⟩

end PackageInstaller.Text
