import PackageInstaller.Proofs.Values

/-! The group that a bracket opens, in a text that nothing else is known of. The list read there has an item
for each element of the group, and ends in a comma where one more segment follows the elements. -/

namespace PackageInstaller.Manifest

namespace ArgumentList

/-- The label and the text of each item. -/
def shown (t : Text) (args : ArgumentList) : List (Option Text × Text) :=
  args.items.map fun item => (item.label, t.slice item.span.start item.span.stop)

@[simp] lemma shown_length (t : Text) (args : ArgumentList) : (args.shown t).length = args.items.length :=
  List.length_map _

/-- Whether a comma follows the last item. -/
def endsInComma (args : ArgumentList) : Bool := args.items.getLast?.any (·.comma.isSome)

/-- Where comments stand between the brackets. -/
def commentSpans (t : Text) (args : ArgumentList) : Scan (List Span) :=
  (literalSpansFrom 0 (args.opener + 1) (t.slice (args.opener + 1) args.closer)).map
    (·.filter fun span => opensComment (t.drop span.start))

def comments (t : Text) (args : ArgumentList) : Scan (List Text) :=
  (args.commentSpans t).map (·.map fun span => t.slice span.start span.stop)

/-- Whether a comment between the brackets begins before the position and goes on after it. -/
def inComment (t : Text) (args : ArgumentList) (pos : Nat) : Bool :=
  ((args.commentSpans t).toOption.getD []).any fun span => span.start < pos && pos < span.stop

end ArgumentList

/-- The pieces `b` stand between brackets, with `u` before and `z` after. -/
structure Grouped (t u : Text) (o k : Char) (b : List Piece) (z : Text) : Prop where
  text : t = u ++ o :: (textOf b ++ k :: z)
  brackets : closerOf? o = some k
  balanced : Balanced b
  lexed : LexedBefore (k :: z) b

def entry (c : List Piece) : Option Text × Text := (labelOf c, textOf c)

def commentsOf : List Piece → List Text
  | [] => []
  | .char _ :: ps => commentsOf ps
  | .literal l :: ps => if l.head? = some '/' then l :: commentsOf ps else commentsOf ps

lemma commentsOf_append (a b : List Piece) : commentsOf (a ++ b) = commentsOf a ++ commentsOf b := by
  induction a with
  | nil => rfl
  | cons p a ih =>
    cases p with
    | char c => exact ih
    | literal l =>
      simp only [List.cons_append, commentsOf, ih]
      split_ifs <;> rfl

lemma commentsOf_chars (w : Text) : commentsOf (chars w) = [] := by
  induction w with
  | nil => rfl
  | cons c w ih => exact ih

lemma slice_length (u v w : Text) :
    Text.slice (u ++ (v ++ w)) u.length (u.length + v.length) = v := by
  rw [← List.append_assoc]
  exact slice_mid u v w

lemma comments_of_spans {u z : Text} {b : List Piece} (h : LexedBefore z b) :
    ((literalSpans u.length b).filter fun span => opensComment ((u ++ (textOf b ++ z)).drop span.start)).map
      (fun span => (u ++ (textOf b ++ z)).slice span.start span.stop) = commentsOf b := by
  induction b generalizing u with
  | nil => rfl
  | cons p b ih =>
    cases p with
    | char c =>
      have htext : u ++ (textOf (.char c :: b) ++ z) = (u ++ [c]) ++ (textOf b ++ z) := by simp [Piece.text]
      have hpos : u.length + 1 = (u ++ [c]).length := by simp
      rw [htext, literalSpans, hpos]
      exact ih h.2
    | literal l =>
      have htext : u ++ (textOf (.literal l :: b) ++ z) = (u ++ l) ++ (textOf b ++ z) := by simp [Piece.text]
      have hdrop : ((u ++ l) ++ (textOf b ++ z)).drop u.length = l ++ (textOf b ++ z) := by
        rw [List.append_assoc, List.drop_left]
      have hslice : ((u ++ l) ++ (textOf b ++ z)).slice u.length (u.length + l.length) = l := by
        rw [List.append_assoc]
        exact slice_length u l _
      have hrest := ih (u := u ++ l) h.2
      rw [List.length_append] at hrest
      rw [htext, literalSpans, commentsOf, ← hrest, List.filter_cons, hdrop, opensComment_literal h.1,
        Piece.isTrivia]
      by_cases hl : l.head? = some '/'
      · rw [if_pos hl, if_pos (decide_eq_true hl), List.map_cons, hslice]
      · rw [if_neg hl, if_neg (by simpa using hl)]

section Reading

variable {t : Text} {pos start q : Nat} {o : Char} {expected : List Char}

lemma bracketStep_walk {below : List Frame} {c : Char} {move : Move} (he : expected ≠ [])
    (h : bracketStep pos start o expected below c = .ok move) :
    ∃ after, (Piece.char c).walk expected = some after ∧ (after = [] → isCloser c = true) ∧
      move = ⟨0, if after = [] then below else .group start o after :: below⟩ := by
  unfold bracketStep at h
  simp only [Piece.walk]
  cases hc : closerOf? c with
  | some k =>
    simp only [hc] at h
    exact ⟨k :: expected, rfl, by simp, by rw [if_neg (by simp)]; exact (Except.ok.inj h).symm⟩
  | none =>
    simp only [hc] at h ⊢
    by_cases hk : isCloser c = true
    · obtain ⟨closer, rest, rfl⟩ := List.exists_cons_of_ne_nil he
      simp only [hk, if_true] at h ⊢
      by_cases hcc : c = closer
      · simp only [hcc, ne_eq, not_true_eq_false, if_false, if_true] at h ⊢
        refine ⟨rest, rfl, by simp, ?_⟩
        split_ifs at h ⊢ <;> exact (Except.ok.inj h).symm
      · simp [hcc] at h
    · simp only [hk, Bool.false_eq_true, if_false] at h ⊢
      exact ⟨expected, rfl, fun hn => absurd hn he, by rw [if_neg he]; exact (Except.ok.inj h).symm⟩

lemma exists_literalLength_of_run {c : Char} (h : run 0 pos [.group start o expected] (c :: t) = .ok q) :
    ∃ r, literalLength? (c :: t) = .ok r := by
  rw [run_code] at h
  obtain ⟨r, hr, -⟩ := bind_eq_ok.mp h
  exact ⟨r, mapError_eq_ok.mp hr⟩

/-- What a scan reads up to the closer it waits for is made up of pieces. -/
theorem exists_interior_of_run (he : expected ≠ [])
    (h : run 0 pos [.group start o expected] t = .ok q) :
    ∃ b k z, t = textOf b ++ k :: z ∧ isCloser k = true ∧ LexedBefore (k :: z) b ∧
      interior? expected (b ++ [.char k]) = some b := by
  induction hn : t.length using Nat.strongRecOn generalizing t pos q expected with
  | ind n ih =>
    cases t with
    | nil => simp [run] at h
    | cons c t =>
      obtain ⟨r, hr⟩ := exists_literalLength_of_run h
      cases r with
      | some m =>
        have hb := literalLength?_bounds hr
        obtain ⟨l, rest, hl, rfl⟩ : ∃ l rest, c :: t = l ++ rest ∧ l.length = m :=
          ⟨_, _, (List.take_append_drop m (c :: t)).symm, List.length_take_of_le hb.2⟩
        rw [hl, List.length_append] at hn
        rw [hl] at h hr ⊢
        rw [run_literal hr] at h
        obtain ⟨b, k, z, rfl, hk, hlex, hi⟩ := ih rest.length (by omega) he h rfl
        refine ⟨.literal l :: b, k, z, by simp [Piece.text], hk, ⟨hr, hlex⟩, ?_⟩
        obtain ⟨closer, later, rfl⟩ := List.exists_cons_of_ne_nil he
        simp only [List.cons_append, interior?, Piece.walk, hi, Option.map_some]
      | none =>
        obtain ⟨move, hm, hrun⟩ := exists_step_of_run h
        rw [step, codeStep, literalLength?_eq_none.mp hr] at hm
        obtain ⟨after, hw, hclose, rfl⟩ := bracketStep_walk he hm
        by_cases ha : after = []
        · subst ha
          exact ⟨[], c, t, rfl, hclose rfl, trivial, by simp [interior?, hw]⟩
        · simp only [if_neg ha] at hrun
          obtain ⟨b, k, z, rfl, hk, hlex, hi⟩ := ih t.length (by rw [← hn]; simp) ha hrun rfl
          refine ⟨.char c :: b, k, z, rfl, hk, ⟨hr, hlex⟩, ?_⟩
          obtain ⟨closer, later, rfl⟩ := List.exists_cons_of_ne_nil ha
          simp only [List.cons_append, interior?, hw, hi, Option.map_some]

end Reading

variable {t u z : Text} {o k : Char} {b : List Piece} {opener : Nat} {args : ArgumentList}

lemma grouped_of_findClosing {closer : Nat} (h : findClosing t opener = .ok closer) :
    ∃ u o k b z, Grouped t u o k b z ∧ opener = u.length := by
  cases hd : t.drop opener with
  | nil =>
    rw [findClosing, hd] at h
    simp [groupLength, Except.map, Scan.from, Except.mapError] at h
  | cons o rest =>
    have hlt : opener < t.length := by
      have := congrArg List.length hd
      rw [List.length_drop, List.length_cons] at this
      omega
    rw [findClosing, hd, groupLength] at h
    cases ho : closerOf? o with
    | none => simp [ho, Except.map, Scan.from, Except.mapError] at h
    | some k =>
      simp only [ho] at h
      cases hr : run 0 1 [.group 0 o [k]] rest with
      | error e => simp [hr, Except.map, Scan.from, Except.mapError] at h
      | ok n =>
        obtain ⟨b, k', z, rfl, -, hlex, hi⟩ := exists_interior_of_run (List.cons_ne_nil _ _) hr
        obtain ⟨rest, hrest, hb⟩ := (interior?_iff ho).mp hi
        obtain ⟨hk, -⟩ := List.cons.inj (List.append_cancel_left hrest)
        cases hk
        refine ⟨t.take opener, o, k, b, z, ⟨?_, ho, hb, hlex⟩, ?_⟩
        · rw [← hd, List.take_append_drop]
        · rw [List.length_take, Nat.min_eq_left (by omega)]

/-- A list is read where a group stands, with the arguments that its segments give. -/
theorem splitArguments_iff : splitArguments t opener = .ok args ↔ ∃ u o k b z, Grouped t u o k b z ∧
    opener = u.length ∧ args.opener = u.length ∧ args.closer = u.length + (textOf b).length + 1 ∧
      argumentsFrom (u.length + 1) (segments b) = .ok args.items := by
  constructor
  · intro h
    obtain ⟨closer, hc, -⟩ := bind_eq_ok.mp h
    obtain ⟨u, o, k, b, z, hg, rfl⟩ := grouped_of_findClosing hc
    rw [hg.text, splitArguments_eq hg.brackets hg.balanced hg.lexed] at h
    obtain ⟨items, hi, rfl⟩ := map_eq_ok.mp h
    exact ⟨u, o, k, b, z, hg, rfl, rfl, rfl, hi⟩
  · rintro ⟨u, o, k, b, z, hg, rfl, ho, hc, hi⟩
    rw [hg.text, splitArguments_eq hg.brackets hg.balanced hg.lexed, hi, ← hc, ← ho]
    rfl

lemma exists_arguments {segs cs : List (List Piece)} (h : entries segs = some cs) (pos : Nat) :
    ∃ items, argumentsFrom pos segs = .ok items := by
  induction segs generalizing pos cs with
  | nil => exact ⟨[], rfl⟩
  | cons s rest ih =>
    by_cases hrest : rest = []
    · exact ⟨_, by rw [hrest, argumentsFrom]⟩
    · rw [entries_cons hrest] at h
      split_ifs at h with hs
      obtain ⟨later, hlater, -⟩ := Option.map_eq_some_iff.mp h
      obtain ⟨items, hi⟩ := ih hlater (pos + (textOf s).length + 1)
      exact ⟨_, by rw [argumentsFrom_cons hrest, if_neg hs, hi]; rfl⟩

lemma slice_core (u z : Text) (s : List Piece) (comma : Option Nat) :
    (u ++ (textOf s ++ z)).slice
      (argumentAt (u.length + (textOf (lead s)).length) (core s) comma).span.start
      (argumentAt (u.length + (textOf (lead s)).length) (core s) comma).span.stop = textOf (core s) := by
  obtain ⟨r, hr, -⟩ := exists_trail s
  have htext : u ++ (textOf s ++ z) = (u ++ textOf (lead s)) ++ textOf (core s) ++ (textOf r ++ z) := by
    conv_lhs => rw [hr]
    simp
  rw [htext]
  simp only [argumentAt]
  rw [← List.length_append]
  exact slice_mid _ _ _

lemma argumentsFrom_shown {segs : List (List Piece)} {items : List Argument}
    (h : argumentsFrom u.length segs = .ok items) : ∃ cs, entries segs = some cs ∧
      items.map (fun item => (item.label,
        (u ++ (textOf (joined segs) ++ z)).slice item.span.start item.span.stop)) = cs.map entry := by
  induction segs generalizing u items with
  | nil =>
    obtain rfl := Except.ok.inj h
    exact ⟨[], rfl, rfl⟩
  | cons s rest ih =>
    by_cases hrest : rest = []
    · subst hrest
      rw [argumentsFrom] at h
      obtain rfl := Except.ok.inj h
      rw [entries]
      split_ifs with hs
      · exact ⟨[], rfl, rfl⟩
      · exact ⟨_, rfl, by rw [List.map_singleton, List.map_singleton, joined, slice_core]; rfl⟩
    · rw [argumentsFrom_cons hrest] at h
      split_ifs at h with hs
      obtain ⟨later, hlater, rfl⟩ := map_eq_ok.mp h
      have hpos : u.length + (textOf s).length + 1 = (u ++ textOf s ++ [',']).length := by
        simp
        omega
      have htext : u ++ (textOf (joined (s :: rest)) ++ z) =
          u ++ textOf s ++ [','] ++ (textOf (joined rest) ++ z) := by
        rw [joined_cons hrest]
        simp [comma, Piece.text]
      rw [hpos] at hlater
      obtain ⟨cs, hcs, hmap⟩ := ih hlater
      refine ⟨core s :: cs, by rw [entries_cons_of_core hs, hcs]; rfl, ?_⟩
      rw [List.map_cons, List.map_cons, ← hmap, htext]
      congr 1
      rw [List.append_assoc, List.append_assoc, slice_core]
      rfl

lemma argumentsFrom_head {segs : List (List Piece)} {pos : Nat} {first : Argument} {rest : List Argument}
    (h : argumentsFrom pos segs = .ok (first :: rest)) : ∃ s v, segs = s :: v ∧ core s ≠ [] ∧
      first.span = ⟨pos + (textOf (lead s)).length,
        pos + (textOf (lead s)).length + (textOf (core s)).length⟩ := by
  obtain ⟨u, s, v, hseg, hu, hs, rfl⟩ := @argumentsFrom_split _ _ [] _ _ h
  obtain rfl : u = [] := by simpa using hu
  exact ⟨s, v, hseg, hs, by simp [argumentAt, leading]⟩

lemma exists_after_lead {d s : List Piece} {v : List (List Piece)} (h : segments d = s :: v) :
    ∃ y, d = lead s ++ (core s ++ y) := by
  obtain ⟨r, hr, -⟩ := exists_trail s
  refine ⟨r ++ following v, ?_⟩
  rw [← joined_segments d, h, ← List.nil_append (s :: v), joined_mid]
  conv_lhs => rw [hr]
  simp [leading]

lemma argumentsFrom_comma {segs : List (List Piece)} {pos : Nat} {items : List Argument}
    (h : argumentsFrom pos segs = .ok items) (hi : items ≠ []) :
    items.getLast?.any (·.comma.isSome) = true ↔ segs.length = items.length + 1 := by
  induction segs generalizing pos items with
  | nil =>
    obtain rfl := Except.ok.inj h
    exact absurd rfl hi
  | cons s rest ih =>
    by_cases hrest : rest = []
    · subst hrest
      rw [argumentsFrom] at h
      obtain rfl := Except.ok.inj h
      split_ifs at hi ⊢
      · exact absurd rfl hi
      · simp [argumentAt]
    · rw [argumentsFrom_cons hrest] at h
      split_ifs at h with hs
      obtain ⟨later, hlater, rfl⟩ := map_eq_ok.mp h
      by_cases hl : later = []
      · subst hl
        have hone : rest.length = 1 := by
          obtain ⟨r, rest, rfl⟩ := List.exists_cons_of_ne_nil hrest
          by_cases hr : rest = []
          · rw [hr, List.length_singleton]
          · rw [argumentsFrom_cons hr] at hlater
            split_ifs at hlater
            obtain ⟨_, -, he⟩ := map_eq_ok.mp hlater
            simp at he
        simp [argumentAt, hone]
      · obtain ⟨item, later, rfl⟩ := List.exists_cons_of_ne_nil hl
        rw [List.getLast?_cons_cons, ih hlater hl]
        simp

lemma endsInComma_iff {segs : List (List Piece)} {pos : Nat} (h : argumentsFrom pos segs = .ok args.items) :
    args.endsInComma = true ↔ args.items ≠ [] ∧ segs.length = args.items.length + 1 := by
  by_cases hi : args.items = []
  · simp [ArgumentList.endsInComma, hi]
  · rw [ArgumentList.endsInComma, argumentsFrom_comma h hi, and_iff_right hi]

lemma Lists.shown {ps a b : List Piece} {list : ArgumentList} {cs : List (List Piece)}
    (h : Lists ps a b list cs) : list.shown (textOf ps) = cs.map entry :=
  map_reads h.reads fun hr => by rw [hr.label, slice_reads hr, entry]

namespace Grouped

variable (h : Grouped t u o k b z)

include h

lemma closes : findClosing t u.length = .ok (u.length + (textOf b).length + 1) := by
  rw [h.text]
  exact findClosing_group u h.brackets h.balanced h.lexed

lemma slice : t.slice (u.length + 1) (u.length + (textOf b).length + 1) = textOf b := by
  have htext : t = (u ++ [o]) ++ textOf b ++ k :: z := by rw [h.text]; simp
  have hstop : u.length + (textOf b).length + 1 = (u ++ [o]).length + (textOf b).length := by
    simp
    omega
  rw [htext, hstop, show u.length + 1 = (u ++ [o]).length by simp]
  exact slice_mid _ _ _

lemma arguments {cs : List (List Piece)} (hcs : contents b = some cs) :
    ∃ args, splitArguments t u.length = .ok args := by
  obtain ⟨items, hi⟩ := exists_arguments hcs (u.length + 1)
  exact ⟨⟨u.length, _, items⟩, splitArguments_iff.mpr ⟨u, o, k, b, z, h, rfl, rfl, rfl, hi⟩⟩

lemma items (hargs : splitArguments t u.length = .ok args) : args.opener = u.length ∧
    args.closer = u.length + (textOf b).length + 1 ∧
      argumentsFrom (u.length + 1) (segments b) = .ok args.items := by
  rw [h.text, splitArguments_eq h.brackets h.balanced h.lexed] at hargs
  obtain ⟨items, hi, rfl⟩ := map_eq_ok.mp hargs
  exact ⟨rfl, rfl, hi⟩

lemma outside (hargs : splitArguments t u.length = .ok args) :
    t.take (u.length + 1) = u ++ [o] ∧ t.drop args.closer = k :: z := by
  have htext : t = (u ++ [o]) ++ (textOf b ++ k :: z) := by rw [h.text]; simp
  have hopen : u.length + 1 = (u ++ [o]).length := by simp
  have hclose : args.closer = ((u ++ [o]) ++ textOf b).length := by
    rw [(h.items hargs).2.1]
    simp
    omega
  constructor
  · rw [htext, hopen, List.take_left]
  · rw [htext, hclose, ← List.append_assoc, List.drop_left]

lemma shown (hargs : splitArguments t u.length = .ok args) :
    ∃ cs, contents b = some cs ∧ args.shown t = cs.map entry := by
  have hi := (h.items hargs).2.2
  rw [show u.length + 1 = (u ++ [o]).length by simp] at hi
  obtain ⟨cs, hcs, hmap⟩ := argumentsFrom_shown (z := k :: z) hi
  refine ⟨cs, hcs, ?_⟩
  rw [← hmap, ArgumentList.shown, h.text, joined_segments, List.append_assoc]
  rfl

lemma head_start (hargs : splitArguments t u.length = .ok args) {s : List Piece} {v : List (List Piece)}
    (hseg : segments b = s :: v) (hs : core s ≠ []) :
    args.items.head?.map (·.span.start) = some (u.length + 1 + (textOf (lead s)).length) := by
  have hi := (h.items hargs).2.2
  rw [hseg] at hi
  by_cases hv : v = []
  · rw [hv, argumentsFrom, if_neg hs] at hi
    rw [← Except.ok.inj hi]
    rfl
  · rw [argumentsFrom_cons hv, if_neg hs] at hi
    obtain ⟨later, -, hi⟩ := map_eq_ok.mp hi
    rw [← hi]
    rfl

lemma commentSpans (hargs : splitArguments t u.length = .ok args) : args.commentSpans t = .ok
    ((literalSpans (u.length + 1) b).filter fun span => opensComment (t.drop span.start)) := by
  obtain ⟨ho, hc, -⟩ := h.items hargs
  rw [ArgumentList.commentSpans, ho, hc, h.slice, literalSpansFrom_textOf _ h.lexed.lexed]
  rfl

lemma comments (hargs : splitArguments t u.length = .ok args) : args.comments t = .ok (commentsOf b) := by
  have hb := comments_of_spans (u := u ++ [o]) h.lexed
  have ht : t = (u ++ [o]) ++ (textOf b ++ k :: z) := by rw [h.text]; simp
  rw [← ht, List.length_append, List.length_singleton] at hb
  rw [ArgumentList.comments, h.commentSpans hargs, ← hb]
  rfl

lemma inComment_iff (hargs : splitArguments t u.length = .ok args) {pos : Nat} :
    args.inComment t pos = true ↔ ∃ g m y, b = g ++ .literal m :: y ∧ m.head? = some '/' ∧
      u.length + 1 + (textOf g).length < pos ∧ pos < u.length + 1 + (textOf g).length + m.length := by
  have hopens : ∀ g m y, b = g ++ .literal m :: y →
      opensComment (t.drop (u.length + 1 + (textOf g).length)) = (Piece.literal m).isTrivia := by
    rintro g m y rfl
    have htext : t = (u ++ o :: textOf g) ++ (m ++ (textOf y ++ k :: z)) := by
      rw [h.text]
      simp [Piece.text]
    have hpos : u.length + 1 + (textOf g).length = (u ++ o :: textOf g).length := by
      simp
      omega
    rw [hpos, htext, List.drop_left]
    exact opensComment_literal (lexedBefore_append.mp h.lexed).2.1
  rw [ArgumentList.inComment, h.commentSpans hargs]
  simp only [Except.toOption, Option.getD_some, List.any_eq_true, List.mem_filter, Bool.and_eq_true,
    decide_eq_true_eq]
  constructor
  · rintro ⟨span, ⟨hmem, hspan⟩, hstart, hstop⟩
    obtain ⟨g, m, y, hb, rfl⟩ := mem_literalSpans.mp hmem
    rw [hopens g m y hb] at hspan
    exact ⟨g, m, y, hb, by simpa [Piece.isTrivia] using hspan, hstart, hstop⟩
  · rintro ⟨g, m, y, hb, hm, hstart, hstop⟩
    refine ⟨_, ⟨mem_literalSpans.mpr ⟨g, m, y, hb, rfl⟩, ?_⟩, hstart, hstop⟩
    rw [hopens g m y hb]
    simpa [Piece.isTrivia] using hm

lemma not_inComment (hargs : splitArguments t u.length = .ok args) {a c : List Piece} (hb : b = a ++ c) :
    args.inComment t (u.length + 1 + (textOf a).length) = false := by
  rw [← Bool.not_eq_true, h.inComment_iff hargs]
  rintro ⟨g, m, y, hg, -, hstart, hstop⟩
  rw [hb] at hg
  rcases append_eq_append_cons hg with ⟨f, rfl, -⟩ | ⟨f, rfl, -⟩
  · rw [textOf_append, List.length_append] at hstart
    omega
  · rw [textOf_append, textOf_cons, Piece.text, List.length_append, List.length_append] at hstop
    omega

end Grouped

end PackageInstaller.Manifest
