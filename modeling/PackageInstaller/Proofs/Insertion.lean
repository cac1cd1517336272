import PackageInstaller.Proofs.Slots
import PackageInstaller.Proofs.Splice

/-! One element put into a slot of a group, in a text that can be read from its beginning to its end. No
call begins in what is put there, so that the calls of the text are those it had. -/

namespace PackageInstaller.Manifest

/-- Neither the character that begins a target declaration nor the one that begins a package call. -/
def Hushed (ps : List Piece) : Prop := .char '.' ∉ ps ∧ .char 'P' ∉ ps

/-- No call begins in these pieces, whatever stands around them. -/
def Quiet (ps : List Piece) : Prop :=
  ∀ z pos before, sitesFrom .targetDeclaration z pos before ps = [] ∧
    sitesFrom .packageCall z pos before ps = []

/-- Pieces that may be put into a group as one of its elements. No call begins in them. -/
structure Insertable (x : List Piece) : Prop extends Elemental x where
  quiet : Quiet x

/-- `f` puts a text where the exchange puts `x`. -/
def Splice.Places (e : Splice) (f : Text → Text) (x : List Piece) : Prop :=
  ∃ pre post, e.new = pre ++ x ++ post ∧
    (∀ q, (e.before ++ pre).getLast? = some q → q.Joins (textOf x)) ∧
    ∀ t, f t = textOf (e.before ++ pre) ++ t ++ textOf (post ++ e.after)

/-- The exchange puts `x` after the elements `cs₁` of the group that opens after `a`, and before the
elements `cs₂`. -/
structure Inserts (e : Splice) (f : Text → Text) (a l r z : List Piece) (o k : Char)
    (cs₁ cs₂ : List (List Piece)) (x : List Piece) : Prop where
  places : e.Places f x
  before : e.before = a ++ .char o :: l
  after : e.after = r ++ .char k :: z
  left : Balanced l
  right : Balanced r
  even : e.Even
  lexed : Lexed e.target
  contents : contents (l ++ e.new ++ r) = some (cs₁ ++ x :: cs₂)
  separators : (segments (l ++ e.new ++ r)).length =
    (segments (l ++ e.old ++ r)).length + if cs₁ ++ cs₂ = [] then 0 else 1
  old : Trivial e.old
  quiet : Quiet e.new
  stops : ∃ p q, e.before = p ++ q ∧ Hushed q ∧ Stops (textOf (q ++ e.old ++ e.after)) ∧
    Stops (textOf (q ++ e.new ++ e.after))
  rest : cs₂ = [] → e.after.head? ≠ some (.char 'P')
  preface : (cs₁ ≠ [] → preface (l ++ e.new ++ r) = preface (l ++ e.old ++ r)) ∧
    (cs₁ = [] → cs₂ = [] → ∀ m, .literal m ∉ preface (l ++ e.new ++ r))

lemma Hushed.append {ps qs : List Piece} (hp : Hushed ps) (hq : Hushed qs) : Hushed (ps ++ qs) := by
  simp only [Hushed, List.mem_append, not_or]
  exact ⟨⟨hp.1, hq.1⟩, hp.2, hq.2⟩

lemma hushed_nil : Hushed [] := by simp [Hushed]

lemma hushed_singleton {c : Char} (h₁ : c ≠ '.') (h₂ : c ≠ 'P') : Hushed [.char c] := by
  simp [Hushed, h₁.symm, h₂.symm]

lemma Trivial.hushed {ps : List Piece} (h : Trivial ps) : Hushed ps :=
  ⟨fun hm => absurd (h _ hm) (by decide), fun hm => absurd (h _ hm) (by decide)⟩

lemma Hushed.quiet {ps : List Piece} (h : Hushed ps) : Quiet ps := fun _ pos before =>
  ⟨sitesFrom_quiet targetDeclaration_calls pos before h.1,
    sitesFrom_quiet packageCall_calls pos before h.2⟩

lemma Quiet.append {ps qs : List Piece} (hp : Quiet ps) (hq : Quiet qs) : Quiet (ps ++ qs) := by
  intro z pos before
  rw [sitesFrom_append, sitesFrom_append, (hp _ _ _).1, (hp _ _ _).2, (hq _ _ _).1, (hq _ _ _).2]
  exact ⟨rfl, rfl⟩

lemma stops_cons {c : Char} (h₁ : Text.isBlank c = false) (h₂ : c ≠ '(') (h₃ : c.isAlpha = false)
    (t : Text) : Stops (c :: t) := by
  intro d hd
  rw [List.dropWhile_cons_of_neg (by simp [h₁])] at hd
  obtain rfl : c = d := by simpa using hd
  exact ⟨h₂, h₃⟩

lemma stops_trivial {g : List Piece} {k : Char} (z : List Piece) (hg : Trivial g)
    (hk : isCloser k = true) : Stops (textOf (g ++ .char k :: z)) := by
  induction g with
  | nil =>
    rcases isCloser_cases hk with rfl | rfl | rfl <;>
      exact stops_cons (by decide) (by decide) (by decide) _
  | cons p g ih =>
    have hrest := ih fun q hq => hg q (List.mem_cons_of_mem _ hq)
    have hp := hg p List.mem_cons_self
    cases p with
    | char c =>
      rw [List.cons_append, textOf_cons, Piece.text, List.singleton_append]
      intro d hd
      have hc : Text.isBlank c = true := hp
      rw [List.dropWhile_cons_of_pos hc] at hd
      exact hrest d hd
    | literal m =>
      simp only [Piece.isTrivia, decide_eq_true_eq] at hp
      cases m with
      | nil => simp at hp
      | cons c m =>
        obtain rfl : c = '/' := by simpa using hp
        exact stops_cons (by decide) (by decide) (by decide) _

lemma head_ne_package {y : List Piece} {k : Char} (z : List Piece) (hy : Trivial y) (hk : isCloser k = true) :
    (y ++ .char k :: z).head? ≠ some (.char 'P') := by
  cases y with
  | nil => rcases isCloser_cases hk with rfl | rfl | rfl <;> simp
  | cons p y =>
    rintro hp
    obtain rfl : p = .char 'P' := by simpa using hp
    exact absurd (hy _ List.mem_cons_self) (by decide)

namespace Slot

variable {a d l old pre post r z x : List Piece} {n : Nat} {o k : Char} {es : List (List Piece)}

lemma hushed (h : Slot d n l old pre post r) : Hushed pre ∧ Hushed post := by
  have hc : Hushed [comma] := hushed_singleton (by decide) (by decide)
  cases h with
  | ahead _ _ _ _ hw hw' =>
    exact ⟨(trivial_chars hw).hushed, hc.append (trivial_chars hw').hushed⟩
  | last _ _ _ hg _ _ hw => exact ⟨hc.append (hg.append (trivial_chars hw)).hushed, hushed_nil⟩
  | only _ _ _ hw hw' => exact ⟨(trivial_chars hw).hushed, (trivial_chars hw').hushed⟩

lemma stops (h : Slot d n l old pre post r) (hk : isCloser k = true) (ho : n = 0 → o = '[') :
    ∃ p q, a ++ .char o :: l = p ++ q ∧ Hushed q ∧ Stops (textOf (q ++ old ++ (r ++ .char k :: z))) ∧
      Stops (textOf (q ++ (pre ++ x ++ post) ++ (r ++ .char k :: z))) := by
  cases h with
  | @ahead u v g y w w' _ _ hg =>
    obtain ⟨p, c, hp, hc⟩ := exists_before_segment a o u
    have hc : c = ',' ∨ c = '[' := hc.imp_right fun h => h.2.trans (ho (by rw [h.1]; rfl))
    have hstop : ∀ t, Stops (textOf (.char c :: t)) := fun t => by
      rcases hc with rfl | rfl <;> exact stops_cons (by decide) (by decide) (by decide) _
    refine ⟨p, .char c :: g, ?_, ?_, hstop _, hstop _⟩
    · rw [← List.cons_append, ← List.append_assoc, hp]
      simp
    · refine (hushed_singleton ?_ ?_).append hg.hushed <;> rcases hc with rfl | rfl <;> decide
  | last _ _ _ hg hy =>
    refine ⟨_, [], (List.append_nil _).symm, hushed_nil, ?_, ?_⟩
    · rw [List.nil_append, ← List.append_assoc]
      exact stops_trivial z (hg.append hy) hk
    · exact stops_cons (by decide) (by decide) (by decide) _
  | only =>
    obtain rfl := ho rfl
    refine ⟨a, [.char '['], rfl, hushed_singleton (by decide) (by decide), ?_, ?_⟩ <;>
      exact stops_cons (by decide) (by decide) (by decide) _

lemma rest (h : Slot d n l old pre post r) (hes : contents d = some es) (hk : isCloser k = true)
    (hn : es.drop n = []) : (r ++ .char k :: z).head? ≠ some (.char 'P') := by
  cases h with
  | @ahead u v g y w w' hseg hne hg =>
    rw [contents, hseg] at hes
    have hcu := core_ne_nil_of_entries hes (List.cons_ne_nil _ _)
    rw [entries_append hcu] at hes
    obtain ⟨cs, hcs, rfl⟩ := Option.map_eq_some_iff.mp hes
    rw [← List.length_map (f := core), List.drop_left] at hn
    subst hn
    have hv : v = [] := by
      by_contra hv
      rw [entries_cons hv] at hcs
      split_ifs at hcs
      simp at hcs
    subst hv
    rw [entries, core_trivial_append hg] at hcs
    split_ifs at hcs with hy
    · simpa [following] using head_ne_package z (core_eq_nil.mp hy) hk
    · simp at hcs
  | last _ _ _ _ hy => exact head_ne_package z hy hk
  | only _ hy => exact head_ne_package z hy hk

/-- An element put into a slot, where the text can be read. -/
theorem inserts (h : Slot d n l old pre post r) (hl : Lexed (a ++ .char o :: (d ++ .char k :: z)))
    (ho : closerOf? o = some k) (hb : Balanced d) (hx : Insertable x) (hes : contents d = some es)
    (hn : n = 0 → o = '[') {f : Text → Text}
    (hf : ∀ t, f t = textOf (a ++ .char o :: (l ++ pre)) ++ t ++ textOf (post ++ r ++ .char k :: z)) :
    Inserts ⟨a ++ .char o :: l, old, pre ++ x ++ post, r ++ .char k :: z⟩ f a l r z o k (es.take n)
      (es.drop n) x := by
  have hk := (isCloser_of_closerOf? ho).2.2
  have hplain : Plain o := by
    unfold closerOf? at ho
    split at ho <;> simp only [Option.some.injEq, reduceCtorEq] at ho <;> decide
  obtain ⟨hleft, hright⟩ := h.sides_balanced hb
  obtain ⟨u, g, y, v, cs, hfill, -, rfl⟩ := h.exists_fills hb hx.toElemental hes
  obtain ⟨p, q, hpq, hq, hs, hs'⟩ := h.stops (a := a) (x := x) (z := z) hk hn
  have hsource := h.source
  have hz : Lexed (d ++ .char k :: z) := hl.right.tail
  have hlexed : LexedBefore (k :: textOf z) d := by
    simpa [Piece.text] using (lexed_append.mp hz).1
  refine ⟨⟨pre, post, rfl, fun q hq => ?_, fun t => ?_⟩, rfl, rfl, hleft, hright,
    ⟨trivial_balanced h.old_trivial, ?_⟩, ?_, hfill.contents_eq hx.toElemental, ?_, h.old_trivial, ?_,
      ⟨p, q, hpq, hq, hs, hs'⟩, h.rest hes hk, ?_, ?_⟩
  · simp only [List.append_assoc, List.cons_append] at hq
    rw [List.getLast?_append_of_ne_nil _ (List.cons_ne_nil _ _)] at hq
    exact h.joins_element hplain hq _
  · rw [hf]
    simp
  · exact (h.around_balanced.1.append hx.segment.balanced).append h.around_balanced.2
  · have hopen : Lexed ((a ++ [.char o]) ++ (d ++ .char k :: z)) := by simpa using hl
    have htarget : Lexed ((a ++ [.char o]) ++ (l ++ (pre ++ x ++ post) ++ r ++ .char k :: z)) := by
      refine hopen.replace (lexed_append.mpr ⟨?_, hz.right⟩) fun q hq => ?_
      · simpa [Piece.text] using h.lexed hx.toElemental hk hlexed
      · rw [List.getLast?_concat] at hq
        obtain rfl := Option.some.inj hq
        exact joins_plain hplain _
    simpa [Splice.target] using htarget
  · rw [hfill.segments_length, List.take_append_drop, ← hsource]
  · exact (h.hushed.1.quiet.append hx.quiet).append h.hushed.2.quiet
  · rw [← hsource]
    exact (hfill.preface_eq hx.toElemental).1
  · intro h₁ h₂
    refine (hfill.preface_eq hx.toElemental).2 ?_
    rw [← List.take_append_drop u.length es, h₁, h₂]
    rfl

end Slot

end PackageInstaller.Manifest
