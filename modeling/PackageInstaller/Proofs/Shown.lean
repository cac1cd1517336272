import Mathlib.Data.List.Pairwise
import PackageInstaller.Proofs.Frame

/-! The targets found in a text. They stand apart from each other and under different names, and an
insertion leaves all of them to be found. -/

namespace PackageInstaller.Manifest

/-- What the array holds that a declaration labels as its dependencies. -/
def elementsOf (b : List Piece) : Option (List (List Piece)) :=
  (contents b).bind fun cs => (dependencyBody? cs).bind contents

/-- `found` are the targets that are found in these pieces, each with its declaration. -/
structure Shown (ps : List Piece) (found : List (Text × Call)) : Prop where
  lexed : Lexed ps
  calls : ∃ calls, Declares ps calls ∧ located 0 [] calls = some found

variable {ps : List Piece} {found : List (Text × Call)} {s : Text × Call}

lemma exists_pieces {anchor : Anchor} {t : Text} {i j : Nat} {os : List Occurrence}
    (h : anchor.codeOccurrences t i j = .ok os) : ∃ ps, Lexed ps ∧ textOf ps = t := by
  rw [Anchor.codeOccurrences, LiteralIndex.ofText] at h
  cases hs : literalSpansFrom 0 0 t with
  | error e =>
    rw [hs] at h
    simp [bind, Except.bind, Except.map] at h
  | ok spans => exact exists_lexed hs

theorem locateTargets_eq_ok {t : Text} {ts : List Target} : (locateTargets t).outcome = .ok ts ↔
    ∃ ps found, t = textOf ps ∧ Shown ps found ∧ ts = found.map targetOf := by
  constructor
  · intro h
    obtain ⟨os, hos, -⟩ := Attempt.bind_eq_ok.mp h
    obtain ⟨ps, hl, rfl⟩ := exists_pieces hos
    obtain ⟨calls, found, hd, hf, rfl⟩ := (locateTargets_iff hl).mp h
    exact ⟨ps, found, rfl, ⟨hl, calls, hd, hf⟩, rfl⟩
  · rintro ⟨ps, found, rfl, ⟨hl, calls, hd, hf⟩, rfl⟩
    exact (locateTargets_iff hl).mpr ⟨calls, found, hd, hf, rfl⟩

lemma Stands.start_lt {call : Call} {a z : List Piece} {w : Text} (h : Stands ps call a w z) :
    call.span.start < call.span.stop := by
  simp only [Call.span, h.span]
  omega

/-- The declaration can be read for a name and has none, or none that is a literal. -/
def Unnamed (call : Call) : Prop :=
  naming call.body = some .nameless ∨ naming call.body = some .notLiteral

/-- What is found in the calls left: one that begins before `outer`, or has no name, is passed over, and one with a
name that is taken only moves the bound. -/
inductive Locating : Nat → List Text → List Call → List (Text × Call) → Prop
  | nil (outer : Nat) (seen : List Text) : Locating outer seen [] []
  | inside {outer : Nat} {seen : List Text} {call : Call} {rest : List Call} {found : List (Text × Call)} :
    call.span.start < outer → Locating outer seen rest found → Locating outer seen (call :: rest) found
  | unnamed {outer : Nat} {seen : List Text} {call : Call} {rest : List Call} {found : List (Text × Call)} :
    outer ≤ call.span.start → Unnamed call → Locating outer seen rest found →
      Locating outer seen (call :: rest) found
  | taken {outer : Nat} {seen : List Text} {call : Call} {rest : List Call} {found : List (Text × Call)}
      {name : Text} : outer ≤ call.span.start → naming call.body = some (.named name) → name ∈ seen →
    Locating call.span.stop seen rest found → Locating outer seen (call :: rest) found
  | found {outer : Nat} {seen : List Text} {call : Call} {rest : List Call} {found : List (Text × Call)}
      {name : Text} : outer ≤ call.span.start → naming call.body = some (.named name) → name ∉ seen →
    Locating call.span.stop (name :: seen) rest found → Locating outer seen (call :: rest) ((name, call) :: found)

section Locating

variable {calls : List Call} {outer : Nat} {seen : List Text}

lemma locating_of_located (h : located outer seen calls = some found) : Locating outer seen calls found := by
  induction calls generalizing outer seen found with
  | nil =>
    obtain rfl := Option.some.inj h
    exact .nil outer seen
  | cons call rest ih =>
    rw [located] at h
    split_ifs at h with hin
    · exact .inside hin (ih h)
    · have hin := Nat.le_of_not_lt hin
      split at h
      · simp at h
      · exact .unnamed hin (.inl ‹_›) (ih h)
      · exact .unnamed hin (.inr ‹_›) (ih h)
      · split_ifs at h with hseen
        · exact .taken hin ‹_› (by simpa using hseen) (ih h)
        · obtain ⟨later, hlater, rfl⟩ := Option.map_eq_some_iff.mp h
          exact .found hin ‹_› (by simpa using hseen) (ih hlater)

lemma Locating.spec (h : Locating outer seen calls found)
    (hs : ∀ call ∈ calls, call.span.start < call.span.stop) :
    (∀ s ∈ found, s.2 ∈ calls ∧ outer ≤ s.2.span.start ∧ s.1 ∉ seen ∧ naming s.2.body = some (.named s.1)) ∧
      found.Pairwise fun s s' => s.2.span.stop ≤ s'.2.span.start ∧ s'.1 ≠ s.1 := by
  induction h with
  | nil => exact ⟨by simp, .nil⟩
  | inside _ _ ih =>
    obtain ⟨hmem, hapart⟩ := ih fun c hc => hs c (List.mem_cons_of_mem _ hc)
    exact ⟨fun s hs => ⟨List.mem_cons_of_mem _ (hmem s hs).1, (hmem s hs).2⟩, hapart⟩
  | unnamed _ _ _ ih =>
    obtain ⟨hmem, hapart⟩ := ih fun c hc => hs c (List.mem_cons_of_mem _ hc)
    exact ⟨fun s hs => ⟨List.mem_cons_of_mem _ (hmem s hs).1, (hmem s hs).2⟩, hapart⟩
  | taken hout _ _ _ ih =>
    have hcall := hs _ List.mem_cons_self
    obtain ⟨hmem, hapart⟩ := ih fun c hc => hs c (List.mem_cons_of_mem _ hc)
    refine ⟨fun s hs => ?_, hapart⟩
    obtain ⟨hm, hle, hrest⟩ := hmem s hs
    exact ⟨List.mem_cons_of_mem _ hm, by omega, hrest⟩
  | found hout hname hseen _ ih =>
    have hcall := hs _ List.mem_cons_self
    obtain ⟨hmem, hapart⟩ := ih fun c hc => hs c (List.mem_cons_of_mem _ hc)
    refine ⟨List.forall_mem_cons.mpr ⟨⟨List.mem_cons_self, hout, hseen, hname⟩, fun s hs => ?_⟩,
      .cons (fun s hs => ?_) hapart⟩
    · obtain ⟨hm, hle, hn, hnamed⟩ := hmem s hs
      exact ⟨List.mem_cons_of_mem _ hm, by omega, fun hin => hn (List.mem_cons_of_mem _ hin), hnamed⟩
    · obtain ⟨-, hle, hn, -⟩ := hmem s hs
      exact ⟨hle, fun he => hn (he ▸ List.mem_cons_self)⟩

end Locating

namespace Shown

lemma stands (h : Shown ps found) (hs : s ∈ found) : ∃ a w z, Stands ps s.2 a w z := by
  obtain ⟨calls, hd, hf⟩ := h.calls
  refine hd.stands h.lexed (((locating_of_located hf).spec fun call hc => ?_).1 s hs).1
  obtain ⟨a, w, z, hst⟩ := hd.stands h.lexed hc
  exact hst.start_lt

lemma apart (h : Shown ps found) :
    found.Pairwise fun s s' => s.2.span.stop ≤ s'.2.span.start ∧ s'.1 ≠ s.1 := by
  obtain ⟨calls, hd, hf⟩ := h.calls
  refine ((locating_of_located hf).spec fun call hc => ?_).2
  obtain ⟨a, w, z, hst⟩ := hd.stands h.lexed hc
  exact hst.start_lt

lemma separate (h : Shown ps found) {s' : Text × Call} (hs : s ∈ found) (hs' : s' ∈ found)
    (hn : s' ≠ s) : s'.1 ≠ s.1 ∧
      (s.2.span.stop ≤ s'.2.span.start ∨ s'.2.span.stop ≤ s.2.span.start) := by
  let R : Text × Call → Text × Call → Prop := fun s s' => s'.1 ≠ s.1 ∧
    (s.2.span.stop ≤ s'.2.span.start ∨ s'.2.span.stop ≤ s.2.span.start)
  have : Std.Symm R := ⟨fun _ _ h => ⟨h.1.symm, h.2.symm⟩⟩
  have hp : found.Pairwise R := h.apart.imp fun h => ⟨h.2, .inl h.1⟩
  exact hp.forall hs hs' hn.symm

lemma eq_of_name (h : Shown ps found) {s' : Text × Call} (hs : s ∈ found) (hs' : s' ∈ found)
    (hn : s'.1 = s.1) : s' = s := by
  by_contra hc
  exact (h.separate hs hs' hc).1 hn

end Shown

lemma Stands.body {call : Call} {a z : List Piece} {w : Text} (h : Stands ps call a w z) (hl : Lexed ps) :
    Lexed call.body := by
  rw [h.opened] at hl
  exact hl.right.tail.left

/-- The declaration of a target is in both texts the same. -/
def SameSource (t t' : Text) (s s' : Text × Call) : Prop :=
  s'.2.body = s.2.body ∧
    t'.slice s'.2.span.start s'.2.span.stop = t.slice s.2.span.start s.2.span.stop

/-- A target is found under its name, with its kind, and with an array of dependencies if it had one. -/
structure Alike (s s' : Text × Call) : Prop where
  name : s'.1 = s.1
  kind : s'.2.occurrence.capture = s.2.occurrence.capture
  array : (elementsOf s'.2.body).isSome = (elementsOf s.2.body).isSome

variable {e : Splice} {f : Text → Text} {a l r d z x : List Piece} {o k : Char}
  {cs₁ cs₂ : List (List Piece)}

/-- The same targets are found after an insertion. -/
theorem shown_target (h : Inserts e f a l r z o k cs₁ cs₂ x) (ho : closerOf? o = some k) (ha : Apart a o)
    (hs : Shown e.source found) : ∃ found', Shown e.target found' ∧
      List.Forall₂ (fun s s' => s'.1 = s.1 ∧ Framed e s.2 s'.2) found found' := by
  obtain ⟨hl, calls, hd, hf⟩ := hs
  obtain ⟨calls', hd', hfr⟩ := declares_target h hl hd
  have hnam : List.Forall₂ (fun c c' => Framed e c c' ∧ naming c'.body = naming c.body) calls calls' := by
    refine (List.forall₂_and_left _ _ |>.mpr ⟨fun c hc => hc, hfr⟩).imp fun c c' hcc' => ?_
    obtain ⟨b, w, y, hst⟩ := hd.stands hl hcc'.1
    exact ⟨hcc'.2, (hcc'.2.deep h ho ha).on_naming h.even (hst.body hl) hst.balanced⟩
  have hloc := @located_framed _ _ _ 0 0 [] hnam (.inl ⟨Nat.zero_le _, rfl⟩)
  rw [hf] at hloc
  generalize hf' : located 0 [] calls' = found' at hloc
  cases hloc with
  | some hrel => exact ⟨_, ⟨h.lexed, calls', hd', hf'⟩, hrel⟩

lemma Inserts.interior (h : Inserts e f a l r z o k cs₁ cs₂ x)
    (hs : e.source = a ++ .char o :: (d ++ .char k :: z)) : d = l ++ e.old ++ r := by
  rw [Splice.source, h.before, h.after] at hs
  have hs : a ++ .char o :: (l ++ e.old ++ r ++ .char k :: z) = a ++ .char o :: (d ++ .char k :: z) := by
    rw [← hs]
    simp
  exact (List.append_cancel_right (List.cons.inj (List.append_cancel_left hs)).2).symm

lemma slice_append_left {u v : Text} {i j : Nat} (hj : j ≤ u.length) : (u ++ v).slice i j = u.slice i j := by
  rw [Text.slice, Text.slice]
  by_cases hi : i ≤ u.length
  · rw [List.drop_append_of_le_length hi, List.take_append_of_le_length (by simp; omega)]
  · simp [show j - i = 0 by omega]

lemma slice_append_right (u v : Text) (i j : Nat) :
    (u ++ v).slice (u.length + i) (u.length + j) = v.slice i j := by
  rw [Text.slice, Text.slice, List.drop_append, List.drop_of_length_le (Nat.le_add_right _ _),
    List.nil_append, Nat.add_sub_cancel_left, Nat.add_sub_add_left]

lemma Framed.sameSource {s s' : Text × Call} (h : Framed e s.2 s'.2)
    (hd : s.2.span.stop ≤ (textOf e.before).length ∨
      (textOf (e.before ++ e.old)).length ≤ s.2.span.start) :
    SameSource (textOf e.source) (textOf e.target) s s' := by
  rcases hd with hd | hd
  · have hkept := h.kept hd
    refine ⟨by rw [hkept], ?_⟩
    simp only [hkept, Splice.source, Splice.target, List.append_assoc, textOf_append]
    rw [slice_append_left hd, slice_append_left hd]
  · obtain ⟨hbody, hstart, hstop⟩ := h.moved hd
    refine ⟨hbody, ?_⟩
    obtain ⟨i, hi⟩ := Nat.exists_eq_add_of_le hd
    obtain ⟨j, hj⟩ := Nat.exists_eq_add_of_le (Nat.le_trans hd h.start_le)
    have hi' : s'.2.span.start = (textOf (e.before ++ e.new)).length + i := by
      simp only [textOf_append, List.length_append] at hi ⊢
      omega
    have hj' : s'.2.span.stop = (textOf (e.before ++ e.new)).length + j := by
      simp only [textOf_append, List.length_append] at hj ⊢
      omega
    simp only [Splice.source, Splice.target, hi, hj, hi', hj']
    rw [textOf_append _ e.after, textOf_append _ e.after, slice_append_right, slice_append_right]

lemma Splice.Places.target (h : e.Places f x) : f (textOf x) = textOf e.target := by
  obtain ⟨pre, post, hnew, -, hf⟩ := h
  rw [hf, Splice.target, hnew]
  simp

lemma elementsOf_isSome {b b' : List Piece} (h : Inserts e f a l r z o k cs₁ cs₂ x)
    (ho : closerOf? o = some k) (held : (contents (l ++ e.old ++ r)).isSome) (hl : Lexed b) (hb : Balanced b)
    (hd : e.Deep b b') : (elementsOf b').isSome = (elementsOf b).isSome := by
  have hrel := hd.on_contents h.even hb
  have hmem : ∀ cs, contents b = some cs → ∀ d ∈ cs, Lexed d ∧ Balanced d := fun cs hcs d hd =>
    ⟨hl.part (mem_contents hb hcs d hd).1, (mem_contents hb hcs d hd).2.1⟩
  rw [elementsOf, elementsOf]
  generalize contents b = cs at hrel hmem ⊢
  generalize contents b' = cs' at hrel ⊢
  cases hrel with
  | none => rfl
  | @some cs cs' hf =>
    have hm := hmem cs rfl
    simp only [Option.bind_some]
    rcases Splice.Deep.on_dependencyBody h.even hf (fun d hd => (hm d hd).1) (fun d hd => (hm d hd).2) with
      ⟨hn, hn'⟩ | ⟨d, d', hd, hd', hdb, hin⟩
    · rw [hn, hn']
    · rw [hd, hd', Option.bind_some, Option.bind_some]
      rcases hin.cases h.even (h.host ho) rfl hdb with hdeep | ⟨-, rfl, rfl⟩
      · have hrel := hdeep.on_contents h.even hdb
        generalize contents d = es at hrel ⊢
        generalize contents d' = es' at hrel ⊢
        cases hrel <;> rfl
      · rw [h.contents, held]
        rfl

end PackageInstaller.Manifest
