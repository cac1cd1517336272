import Mathlib.Data.List.TakeWhile
import PackageInstaller.Proofs.Pieces

/-! Brackets among the pieces of a text: the closers still expected after some of them, the pieces that
leave none open, and the group that a bracket opens. -/

namespace PackageInstaller.Manifest

/-- The closers expected after a piece, the innermost first, from those expected before it. -/
def Piece.walk (expected : List Char) : Piece → Option (List Char)
  | .literal _ => some expected
  | .char c =>
    match closerOf? c with
    | some closer => some (closer :: expected)
    | none =>
      if isCloser c then
        match expected with
        | [] => none
        | closer :: rest => if c = closer then some rest else none
      else some expected

def walk : List Char → List Piece → Option (List Char)
  | expected, [] => some expected
  | expected, p :: ps => (p.walk expected).bind fun after => walk after ps

def Balanced (b : List Piece) : Prop := walk [] b = some []

/-- The pieces up to the one that brings the last expected closer. -/
def interior? : List Char → List Piece → Option (List Piece)
  | _, [] => none
  | expected, p :: ps =>
    match p.walk expected with
    | none => none
    | some [] => some []
    | some after => (interior? after ps).map (p :: ·)

/-- Characters that are no brackets. -/
def Inner (c : Char) : Prop := closerOf? c = none ∧ isCloser c = false

instance (c : Char) : Decidable (Inner c) := inferInstanceAs (Decidable (_ ∧ _))

@[simp] lemma walk_nil (expected : List Char) : walk expected [] = some expected := rfl

@[simp] lemma walk_literal (expected : List Char) (l : Text) (ps : List Piece) :
    walk expected (.literal l :: ps) = walk expected ps := rfl

lemma walk_append (expected : List Char) (ps qs : List Piece) :
    walk expected (ps ++ qs) = (walk expected ps).bind fun after => walk after qs := by
  induction ps generalizing expected with
  | nil => rfl
  | cons p ps ih =>
    rw [List.cons_append, walk, walk]
    cases p.walk expected with
    | none => rfl
    | some after => exact ih after

lemma isCloser_of_closerOf? {o k : Char} (h : closerOf? o = some k) :
    isCloser o = false ∧ closerOf? k = none ∧ isCloser k = true := by
  unfold closerOf? at h
  split at h <;> simp only [Option.some.injEq, reduceCtorEq] at h <;> subst h <;> decide

lemma plain_of_closerOf? {o k : Char} (h : closerOf? o = some k) : Plain o ∧ Plain k := by
  unfold closerOf? at h
  split at h <;> simp only [Option.some.injEq, reduceCtorEq] at h <;> subst h <;> decide

lemma isCloser_cases {k : Char} (h : isCloser k = true) : k = ')' ∨ k = ']' ∨ k = '}' := by
  simpa [isCloser, or_assoc] using h

lemma walk_opener {o k : Char} (h : closerOf? o = some k) (expected : List Char) (ps : List Piece) :
    walk expected (.char o :: ps) = walk (k :: expected) ps := by
  simp [walk, Piece.walk, h]

lemma walk_closer {o k : Char} (h : closerOf? o = some k) (expected : List Char) (ps : List Piece) :
    walk (k :: expected) (.char k :: ps) = walk expected ps := by
  obtain ⟨-, hn, hk⟩ := isCloser_of_closerOf? h
  simp [walk, Piece.walk, hn, hk]

lemma walk_inner {c : Char} (h : Inner c) (expected : List Char) (ps : List Piece) :
    walk expected (.char c :: ps) = walk expected ps := by
  simp [walk, Piece.walk, h.1, h.2]

lemma Piece.walk_cases {p : Piece} {expected after : List Char} (h : p.walk expected = some after) :
    (∃ o k, p = .char o ∧ closerOf? o = some k ∧ after = k :: expected) ∨
      (∃ c, p = .char c ∧ closerOf? c = none ∧ isCloser c = true ∧ expected = c :: after) ∨
      (after = expected ∧ ∀ c, p = .char c → Inner c) := by
  cases p with
  | literal l => exact .inr (.inr ⟨by simpa [Piece.walk] using h.symm, nofun⟩)
  | char c =>
    simp only [Piece.walk] at h
    cases hc : closerOf? c with
    | some k =>
      simp only [hc] at h
      exact .inl ⟨c, k, rfl, hc, by simpa using h.symm⟩
    | none =>
      simp only [hc] at h
      split_ifs at h with hk
      · cases expected with
        | nil => simp at h
        | cons closer rest =>
          simp only at h
          split_ifs at h with he
          · refine .inr (.inl ⟨c, rfl, hc, hk, ?_⟩)
            simp only [Option.some.injEq] at h
            rw [he, h]
      · refine .inr (.inr ⟨by simpa using h.symm, fun d hd => ?_⟩)
        cases hd
        exact ⟨hc, by simpa using hk⟩

lemma Piece.walk_inner {p : Piece} (h : ∀ c, p = .char c → Inner c) (expected : List Char) :
    p.walk expected = some expected := by
  cases p with
  | literal l => rfl
  | char c => simp [Piece.walk, (h c rfl).1, (h c rfl).2]

lemma Piece.walk_below {p : Piece} {expected after : List Char} (below : List Char)
    (h : p.walk expected = some after) : p.walk (expected ++ below) = some (after ++ below) := by
  rcases p.walk_cases h with ⟨o, k, rfl, ho, rfl⟩ | ⟨c, rfl, hn, hc, rfl⟩ | ⟨rfl, hc⟩
  · simp [Piece.walk, ho]
  · simp [Piece.walk, hn, hc]
  · exact Piece.walk_inner hc _

lemma walk_below {ps : List Piece} {expected after : List Char} (below : List Char)
    (h : walk expected ps = some after) : walk (expected ++ below) ps = some (after ++ below) := by
  induction ps generalizing expected with
  | nil =>
    obtain rfl : expected = after := by simpa using h
    rfl
  | cons p ps ih =>
    rw [walk, Option.bind_eq_some_iff] at h
    obtain ⟨next, hp, h⟩ := h
    rw [walk, p.walk_below below hp]
    exact ih h

lemma Balanced.walk {b : List Piece} (h : Balanced b) (expected : List Char) :
    walk expected b = some expected :=
  walk_below expected h

lemma Balanced.nil : Balanced [] := rfl

lemma Balanced.append {a b : List Piece} (ha : Balanced a) (hb : Balanced b) : Balanced (a ++ b) := by
  rw [Balanced, walk_append, ha.walk]
  exact hb

lemma Balanced.right {a b : List Piece} (ha : Balanced a) (h : Balanced (a ++ b)) : Balanced b := by
  rwa [Balanced, walk_append, ha.walk] at h

lemma Balanced.left {a b : List Piece} (hb : Balanced b) (h : Balanced (a ++ b)) : Balanced a := by
  rw [Balanced, walk_append, Option.bind_eq_some_iff] at h
  obtain ⟨after, ha, h⟩ := h
  rw [hb.walk] at h
  rw [Balanced, ha, h]

lemma Balanced.group {o k : Char} {b : List Piece} (ho : closerOf? o = some k) (hb : Balanced b) :
    Balanced (.char o :: (b ++ [.char k])) := by
  rw [Balanced, walk_opener ho, walk_append, hb.walk]
  exact walk_closer ho [] []

lemma balanced_chars {w : Text} (h : ∀ c ∈ w, Inner c) : Balanced (chars w) := by
  induction w with
  | nil => rfl
  | cons c w ih =>
    rw [Balanced, chars, List.map_cons, walk_inner (h c List.mem_cons_self)]
    exact ih fun d hd => h d (List.mem_cons_of_mem _ hd)

lemma not_mem_chars {w : Text} {c : Char} (hw : ∀ d ∈ w, Inner d) (hc : ¬Inner c) : Piece.char c ∉ chars w := by
  intro hm
  obtain ⟨d, hd, he⟩ := List.mem_map.mp hm
  obtain rfl := Piece.char.inj he
  exact hc (hw d hd)

lemma not_inner_of_closerOf? {o k : Char} (ho : closerOf? o = some k) : ¬Inner o := fun h => by
  simp [h.1] at ho

/-- Pieces that bracket evenly may take each other's place. -/
lemma walk_exchange {a m n b : List Piece} (hm : Balanced m) (hn : Balanced n) (expected : List Char) :
    walk expected (a ++ n ++ b) = walk expected (a ++ m ++ b) := by
  simp only [walk_append]
  cases walk expected a with
  | none => rfl
  | some after => simp only [Option.bind_some, hm.walk, hn.walk]

lemma exists_walk_left {a b : List Piece} {expected after : List Char}
    (h : walk expected (a ++ b) = some after) : ∃ between, walk expected a = some between := by
  rw [walk_append, Option.bind_eq_some_iff] at h
  exact h.imp fun between h => h.1

lemma Piece.walk_pop {p : Piece} {above below after : List Char} {k : Char}
    (h : p.walk (above ++ k :: below) = some after) : (p = .char k ∧ above = [] ∧ after = below) ∨
      ∃ next, after = next ++ k :: below ∧ p.walk above = some next := by
  rcases p.walk_cases h with ⟨o, k', rfl, ho, rfl⟩ | ⟨c, rfl, hn, hc, he⟩ | ⟨rfl, hc⟩
  · exact .inr ⟨k' :: above, rfl, by simp [Piece.walk, ho]⟩
  · cases above with
    | nil =>
      obtain ⟨rfl, rfl⟩ := List.cons.inj he
      exact .inl ⟨rfl, rfl, rfl⟩
    | cons closer above =>
      obtain ⟨rfl, rfl⟩ := List.cons.inj he
      exact .inr ⟨above, rfl, by simp [Piece.walk, hn, hc]⟩
  · exact .inr ⟨above, rfl, Piece.walk_inner hc above⟩

/-- Where a closer is expected, either it comes, at the place where all opened after it are closed, or
it is expected still. -/
lemma walk_pop {above below after : List Char} {k : Char} {ps : List Piece}
    (h : walk (above ++ k :: below) ps = some after) :
    (∃ b rest, ps = b ++ .char k :: rest ∧ walk above b = some [] ∧ walk below rest = some after) ∨
      ∃ above', after = above' ++ k :: below ∧ walk above ps = some above' := by
  induction ps generalizing above with
  | nil => exact .inr ⟨above, by simpa using h.symm, rfl⟩
  | cons p ps ih =>
    obtain ⟨after', hp, hps⟩ := Option.bind_eq_some_iff.mp h
    rcases Piece.walk_pop hp with ⟨rfl, rfl, rfl⟩ | ⟨next, rfl, hnext⟩
    · exact .inl ⟨[], ps, rfl, rfl, hps⟩
    · rcases ih hps with ⟨b, rest, rfl, hb, hr⟩ | ⟨above', rfl, hw⟩
      · exact .inl ⟨p :: b, rest, rfl, by rw [walk, hnext]; exact hb, hr⟩
      · exact .inr ⟨above', rfl, by rw [walk, hnext]; exact hw⟩

/-- An expected closer comes if none is expected in the end. -/
lemma exists_closed {below : List Char} {k : Char} {ps : List Piece} (h : walk (k :: below) ps = some []) :
    ∃ b rest, ps = b ++ .char k :: rest ∧ Balanced b ∧ walk below rest = some [] := by
  rcases @walk_pop [] _ _ _ _ h with ⟨b, rest, rfl, hb, hr⟩ | ⟨above, hn, -⟩
  · exact ⟨b, rest, rfl, hb, hr⟩
  · simp at hn

lemma Balanced.cons_char {c : Char} {ps : List Piece} (hc : Inner c) (h : Balanced ps) : Balanced (.char c :: ps) :=
  (walk_inner hc [] ps).trans h

lemma Balanced.cons_group {o k : Char} {b rest : List Piece} (ho : closerOf? o = some k) (hb : Balanced b)
    (hr : Balanced rest) : Balanced (.char o :: (b ++ .char k :: rest)) := by
  simpa using (hb.group ho).append hr

/-- Balanced pieces are literals, characters that are no brackets, and groups of balanced pieces. -/
@[elab_as_elim]
theorem Balanced.induction {motive : ∀ ps, Balanced ps → Prop} (nil : motive [] .nil)
    (literal : ∀ l ps (h : Balanced ps), motive ps h → motive (.literal l :: ps) h)
    (char : ∀ c ps (hc : Inner c) (h : Balanced ps), motive ps h → motive (.char c :: ps) (h.cons_char hc))
    (group : ∀ o k b rest (ho : closerOf? o = some k) (hb : Balanced b) (hr : Balanced rest), motive b hb →
      motive rest hr → motive (.char o :: (b ++ .char k :: rest)) (hb.cons_group ho hr))
    (ps : List Piece) (h : Balanced ps) : motive ps h := by
  induction hn : ps.length using Nat.strongRecOn generalizing ps with
  | ind n ih =>
    cases ps with
    | nil => exact nil
    | cons p ps =>
      rw [List.length_cons] at hn
      obtain ⟨after, hp, hw⟩ := Option.bind_eq_some_iff.mp h
      rcases p.walk_cases hp with ⟨o, k, rfl, ho, rfl⟩ | ⟨c, -, -, -, hnil⟩ | ⟨rfl, hc⟩
      · obtain ⟨b, rest, rfl, hb, hr⟩ := exists_closed hw
        rw [List.length_append, List.length_cons] at hn
        exact group o k b rest ho hb hr (ih b.length (by omega) b hb rfl) (ih rest.length (by omega) rest hr rfl)
      · simp at hnil
      · have hps := ih ps.length (by omega) ps hw rfl
        cases p with
        | literal l => exact literal l ps hw hps
        | char c => exact char c ps (hc c rfl) hw hps

lemma interior?_cons {p : Piece} {expected after : List Char} (h : p.walk expected = some after) (hn : after ≠ [])
    (ps : List Piece) : interior? expected (p :: ps) = (interior? after ps).map (p :: ·) := by
  obtain ⟨k, below, rfl⟩ := List.exists_cons_of_ne_nil hn
  rw [interior?, h]

lemma interior?_eq_some {above : List Char} {k : Char} {ps b : List Piece} (hk : closerOf? k = none)
    (hc : isCloser k = true) : interior? (above ++ [k]) ps = some b ↔
      ∃ rest, ps = b ++ .char k :: rest ∧ walk above b = some [] := by
  constructor
  · intro h
    induction ps generalizing above b with
    | nil => simp [interior?] at h
    | cons p ps ih =>
      cases hp : p.walk (above ++ [k]) with
      | none => simp [interior?, hp] at h
      | some after =>
        rcases Piece.walk_pop hp with ⟨rfl, rfl, rfl⟩ | ⟨next, rfl, hnext⟩
        · rw [List.nil_append] at hp
          obtain rfl : b = [] := by simpa [interior?, hp] using h.symm
          exact ⟨ps, rfl, rfl⟩
        · rw [interior?_cons hp (by simp)] at h
          obtain ⟨b, hb, rfl⟩ := Option.map_eq_some_iff.mp h
          obtain ⟨rest, rfl, hw⟩ := ih hb
          exact ⟨rest, rfl, by rw [walk, hnext]; exact hw⟩
  · rintro ⟨rest, rfl, hw⟩
    induction b generalizing above with
    | nil =>
      obtain rfl : above = [] := by simpa using hw
      simp [interior?, Piece.walk, hk, hc]
    | cons p b ih =>
      obtain ⟨next, hp, hw⟩ := Option.bind_eq_some_iff.mp hw
      rw [List.cons_append, interior?_cons (p.walk_below [k] hp) (by simp), ih hw]
      rfl

/-- The bracket group that begins with `o` ends where what lies between is balanced. -/
theorem interior?_iff {o k : Char} {ps b : List Piece} (ho : closerOf? o = some k) :
    interior? [k] ps = some b ↔ ∃ rest, ps = b ++ .char k :: rest ∧ Balanced b := by
  obtain ⟨-, hk, hc⟩ := isCloser_of_closerOf? ho
  exact @interior?_eq_some [] k ps b hk hc

lemma group_unique {o k : Char} {a b z y : List Piece} (ho : closerOf? o = some k) (ha : Balanced a)
    (hb : Balanced b) (h : a ++ .char k :: z = b ++ .char k :: y) : a = b ∧ z = y := by
  have h₁ := (interior?_iff ho).mpr ⟨z, rfl, ha⟩
  have h₂ := (interior?_iff ho).mpr ⟨y, h, hb⟩
  obtain rfl : a = b := by rw [h₁] at h₂; exact Option.some.inj h₂
  simpa using h

/-- A group that begins after the opener of another one ends before the closer of that, or begins after it. -/
lemma group_within {o k o' k' : Char} {b d b' z z' : List Piece} (ho : closerOf? o = some k)
    (ho' : closerOf? o' = some k') (hb : Balanced b) (hb' : Balanced b')
    (h : b ++ .char k :: z = d ++ .char o' :: (b' ++ .char k' :: z')) :
    (textOf d).length + (textOf b').length + 2 ≤ (textOf b).length ∨ ∃ m, d = b ++ .char k :: m := by
  rcases append_cons_eq_append_cons h with ⟨-, hk, -⟩ | ⟨m, hm, -⟩ | ⟨m, rfl, hrest⟩
  · -- a closer opens no group
    obtain rfl := Piece.char.inj hk
    simp [(isCloser_of_closerOf? ho).2.1] at ho'
  · exact .inr ⟨m, hm⟩
  · rw [Balanced, walk_append, Option.bind_eq_some_iff] at hb
    obtain ⟨s, -, hs⟩ := hb
    rw [walk_opener ho'] at hs
    obtain ⟨c, rest, rfl, hc, -⟩ := exists_closed hs
    rw [List.append_assoc, List.cons_append] at hrest
    obtain ⟨rfl, -⟩ := group_unique ho' hb' hc hrest
    refine .inl ?_
    simp only [textOf_append, textOf_cons, Piece.text, List.length_append, List.length_singleton]
    omega

/-- The innermost bracket open at a place is the same however it is found. -/
lemma opener_unique {o o' k k' : Char} {x x' b b' : List Piece} (ho : closerOf? o = some k)
    (ho' : closerOf? o' = some k') (hb : Balanced b) (hb' : Balanced b')
    (h : x ++ .char o :: b = x' ++ .char o' :: b') : x = x' ∧ o = o' ∧ b = b' := by
  have key : ∀ {o k : Char} {b c : List Piece}, closerOf? o = some k → Balanced b →
      ¬ Balanced (c ++ .char o :: b) := by
    intro o k b c ho hb hc
    rw [Balanced, walk_append, Option.bind_eq_some_iff] at hc
    obtain ⟨after, -, hw⟩ := hc
    rw [walk_opener ho, hb.walk] at hw
    simp at hw
  rcases append_cons_eq_append_cons h with ⟨hx, hc, hbb⟩ | ⟨c, -, rfl⟩ | ⟨c, -, rfl⟩
  · exact ⟨hx, Piece.char.inj hc, hbb⟩
  · exact absurd hb (key ho' hb')
  · exact absurd hb' (key ho hb)

lemma exists_opener {a : List Piece} {k : Char} {s : List Char} (h : walk [] a = some (k :: s)) :
    ∃ x o y, a = x ++ .char o :: y ∧ closerOf? o = some k ∧ Balanced y ∧ walk [] x = some s := by
  induction hn : a.length using Nat.strongRecOn generalizing a k s with
  | ind n ih =>
    rcases List.eq_nil_or_concat' a with rfl | ⟨a, p, rfl⟩
    · simp at h
    · rw [List.length_append, List.length_singleton] at hn
      rw [walk_append, Option.bind_eq_some_iff] at h
      obtain ⟨before, ha, hp⟩ := h
      rw [walk, Option.bind_eq_some_iff] at hp
      obtain ⟨after, hp, he⟩ := hp
      obtain rfl : after = k :: s := by simpa using he
      rcases p.walk_cases hp with ⟨o, k', rfl, ho, he⟩ | ⟨c, rfl, hn', hc, rfl⟩ | ⟨rfl, hc⟩
      · obtain ⟨rfl, rfl⟩ := List.cons.inj he
        exact ⟨a, o, [], rfl, ho, .nil, ha⟩
      · -- the group that this closer ends lies between the opener and here
        obtain ⟨x₁, o₁, y₁, rfl, ho₁, hy₁, hx₁⟩ := ih a.length (by omega) ha rfl
        obtain ⟨x, o, y, rfl, ho, hy, hx⟩ := ih x₁.length (by
          rw [List.length_append, List.length_cons] at hn
          omega) hx₁ rfl
        exact ⟨x, o, y ++ .char o₁ :: (y₁ ++ [.char c]), by simp, ho, hy.append (hy₁.group ho₁), hx⟩
      · obtain ⟨x, o, y, rfl, ho, hy, hx⟩ := ih a.length (by omega) ha rfl
        refine ⟨x, o, y ++ [p], by simp, ho, hy.append ?_, hx⟩
        rw [Balanced, walk, Piece.walk_inner hc]
        rfl

lemma run_literal {pos start : Nat} {o : Char} {expected : List Char} {l t : Text}
    (h : literalLength? (l ++ t) = .ok (some l.length)) :
    run 0 pos [.group start o expected] (l ++ t) =
      run 0 (pos + l.length) [.group start o expected] t := by
  cases l with
  | nil => simp
  | cons c l =>
    rw [List.cons_append] at h ⊢
    rw [run_code, h]
    simp only [Scan.from, Except.mapError, Except.bind, Option.elim]
    rw [← List.cons_append, List.drop_left]

lemma exists_interior_cons {p : Piece} {after : List Char} {ps : List Piece} {pos q : Nat} :
    (∃ b, interior? after ps = some b ∧ q = pos + p.text.length + (textOf b).length + 1) ↔
      ∃ b, (interior? after ps).map (p :: ·) = some b ∧ q = pos + (textOf b).length + 1 := by
  simp only [Option.map_eq_some_iff]
  constructor
  · rintro ⟨b, hb, rfl⟩
    exact ⟨_, ⟨b, hb, rfl⟩, by rw [textOf_cons, List.length_append]; omega⟩
  · rintro ⟨_, ⟨b, hb, rfl⟩, rfl⟩
    exact ⟨b, hb, by rw [textOf_cons, List.length_append]; omega⟩

lemma run_group {ps : List Piece} (h : Lexed ps) {pos start q : Nat} {o : Char}
    {expected : List Char} (he : expected ≠ []) :
    run 0 pos [.group start o expected] (textOf ps) = .ok q ↔
      ∃ b, interior? expected ps = some b ∧ q = pos + (textOf b).length + 1 := by
  induction h generalizing pos expected with
  | nil => simp [run, interior?]
  | @literal l ps hl _ ih =>
    rw [textOf_cons, Piece.text, run_literal hl, ih he, interior?]
    cases expected with
    | nil => exact absurd rfl he
    | cons closer rest => exact exists_interior_cons (p := .literal l)
  | @char c ps hc _ ih =>
    rw [textOf_cons, Piece.text, List.cons_append, List.nil_append]
    have hs : step pos (.group start o expected) [] c (textOf ps) =
        bracketStep pos start o expected [] c := by
      rw [step, codeStep, literalLength?_eq_none.mp hc]
    rw [run, hs, interior?]
    have onward : ∀ after, after ≠ [] → (run 0 (pos + 1) [.group start o after] (textOf ps) = .ok q ↔
        ∃ b, (interior? after ps).map (Piece.char c :: ·) = some b ∧
          q = pos + (textOf b).length + 1) := by
      intro after ha
      rw [ih ha]
      exact exists_interior_cons (p := .char c)
    simp only [bracketStep, Piece.walk]
    cases hcl : closerOf? c with
    | some k => exact onward _ (by simp)
    | none =>
      by_cases hk : isCloser c = true
      · cases expected with
        | nil => exact absurd rfl he
        | cons closer rest =>
          by_cases hcc : c = closer
          · subst hcc
            simp only [hk, if_true, ne_eq, not_true_eq_false, if_false]
            cases rest with
            | nil =>
              have hend : run 0 (pos + 1) [] (textOf ps) = .ok (pos + 1) := by
                cases textOf ps <;> rfl
              simp [hend, @eq_comm _ q]
            | cons next rest =>
              simpa only [reduceCtorEq, if_false] using onward (next :: rest) (by simp)
          · simp [hk, hcc]
      · cases expected with
        | nil => exact absurd rfl he
        | cons closer rest => simpa [hk] using onward (closer :: rest) (by simp)

theorem groupLength_iff {ps : List Piece} {o k : Char} {n : Nat} (h : Lexed ps)
    (ho : closerOf? o = some k) : groupLength (o :: textOf ps) = .ok n ↔
      ∃ b, interior? [k] ps = some b ∧ n = (textOf b).length + 2 := by
  rw [groupLength, ho]
  simp only [run_group h (List.cons_ne_nil k [])]
  simp only [Nat.add_comm 1, Nat.add_assoc]

lemma LexedBefore.closing {k : Char} {s : Text} {ps : List Piece} (hk : isCloser k = true)
    (h : LexedBefore (k :: s) ps) (t : Text) : LexedBefore (k :: t) ps := by
  have hc : k ≠ '/' ∧ k ≠ '*' ∧ k ≠ '#' ∧ k ≠ '"' ∧ k ≠ '\n' := by
    rcases isCloser_cases hk with rfl | rfl | rfl <;> decide
  refine h.rejoin fun p hp => ?_
  obtain ⟨ps, rfl⟩ := List.getLast?_eq_some_iff.mp hp
  cases p with
  | char c => exact ⟨fun _ => by simp [hc], fun _ => by simp [hc]⟩
  | literal l =>
    refine ⟨.inr (by simp [hc]), fun hl => ?_⟩
    have hend := (lineComment_ends (lexedBefore_append.mp h).2.1 hl).2
    simp [hc] at hend

lemma LexedBefore.closed {k : Char} {s : Text} {ps : List Piece} (hk : isCloser k = true)
    (h : LexedBefore (k :: s) ps) : Lexed (ps ++ [.char k]) := by
  refine lexed_append.mpr ⟨h.closing hk [], .char (literalLength?_of_plain [] ?_) .nil⟩
  rcases isCloser_cases hk with rfl | rfl | rfl <;> decide

lemma groupLength_append {u : Text} {n : Nat} (s : Text) (h : groupLength u = .ok n) :
    groupLength (u ++ s) = .ok n := by
  cases u with
  | nil => simp [groupLength] at h
  | cons o u =>
    rw [List.cons_append, groupLength]
    rw [groupLength] at h
    cases ho : closerOf? o with
    | none => simp [ho] at h
    | some k =>
      simp only [ho] at h ⊢
      have hbound := (run_bounds h (.inr (List.cons_ne_nil _ _))).2
      exact run_append (s := []) s (by rwa [List.append_nil]) hbound (List.cons_ne_nil _ _)

lemma groupLength_group {o k : Char} {b : List Piece} {z : Text} (ho : closerOf? o = some k)
    (hb : Balanced b) (h : LexedBefore (k :: z) b) :
    groupLength (o :: (textOf b ++ k :: z)) = .ok ((textOf b).length + 2) := by
  have hl := h.closed (isCloser_of_closerOf? ho).2.2
  have hg := (groupLength_iff hl ho).mpr ⟨b, (interior?_iff ho).mpr ⟨[], rfl, hb⟩, rfl⟩
  simpa [Piece.text] using groupLength_append z hg

lemma findClosing_group {o k : Char} {b : List Piece} {z : Text} (u : Text) (ho : closerOf? o = some k)
    (hb : Balanced b) (h : LexedBefore (k :: z) b) :
    findClosing (u ++ o :: (textOf b ++ k :: z)) u.length = .ok (u.length + (textOf b).length + 1) := by
  rw [findClosing, List.drop_left, groupLength_group ho hb h]
  rfl

theorem findClosing_iff {a ps : List Piece} {o k : Char} {n : Nat} (h : Lexed ps)
    (ho : closerOf? o = some k) :
    findClosing (textOf (a ++ .char o :: ps)) (textOf a).length = .ok n ↔
      ∃ b, interior? [k] ps = some b ∧ n = (textOf a).length + (textOf b).length + 1 := by
  rw [findClosing, textOf_append, List.drop_left, textOf_cons, Piece.text, List.cons_append,
    List.nil_append]
  cases hg : groupLength (o :: textOf ps) with
  | error e =>
    simp only [Scan.from, Except.map, Except.mapError, reduceCtorEq, false_iff, not_exists, not_and]
    rintro b hb -
    rw [(groupLength_iff h ho).mpr ⟨b, hb, rfl⟩] at hg
    simp at hg
  | ok m =>
    obtain ⟨b, hb, rfl⟩ := (groupLength_iff h ho).mp hg
    simp only [Scan.from, Except.map, Except.mapError, Except.ok.injEq, hb, Option.some.injEq,
      exists_eq_left']
    omega

end PackageInstaller.Manifest
