import PackageInstaller.Proofs.Guards
import PackageInstaller.Proofs.Partition

/-! The scanners as procedures that call one another: a string asks for the closer of each of its interpolations, a
group for the literals in it, and the readers of a list and of a whole text for both. Each may nest so many calls and
rounds of its loops and no more. Two for each character that is left, and two besides, are always enough, and the
answer is then what the scanner finds that reads the text once and keeps a stack. -/

namespace PackageInstaller.Manifest

/-- A result, a fault, or nothing, where more calls and rounds would have to be nested. -/
abbrev BoundedScan := ExceptT ScanError Option

def answered {α : Type} (r : Scan α) : BoundedScan α := ExceptT.mk (some r)

def unanswered {α : Type} : BoundedScan α := ExceptT.mk none

/-- The character at an offset. To look past the end is a fault. -/
def charAt (t : Text) (i : Nat) : Scan Char :=
  match t[i]? with
  | some c => .ok c
  | none => .error .pastEnd

/-- The hashes at the head of a text, counted until another character is seen. -/
def countHashes : Text → Scan Nat
  | [] => .error .pastEnd
  | '#' :: t => (countHashes t).map (· + 1)
  | _ :: _ => .ok 0

mutual

/-- Where the comment or string literal at `i` ends, if one stands there. -/
def literalWithin : Nat → Text → Nat → BoundedScan (Option Nat)
  | 0, _, _ => unanswered
  | n + 1, t, i =>
    match opening? (t.drop i) with
    | none => return none
    | some .lineComment => return some (i + lineCommentLength (t.drop i))
    | some .blockComment =>
      match blockCommentLength? 0 (t.drop i) with
      | some m => return some (i + m)
      | none => throw (.unterminatedComment i)
    | some (.string _ multiline) => do
      let hashes ← answered (countHashes (t.drop i))
      let stop ← stringWithin n t i hashes multiline (i + (hashes + quoteCount multiline))
      return some stop
termination_by structural x => x

/-- Where the string ends whose body is read up to `i`. -/
def stringWithin : Nat → Text → Nat → Nat → Bool → Nat → BoundedScan Nat
  | 0, _, _, _, _, _ => unanswered
  | n + 1, t, start, hashes, multiline, i =>
    if t.length ≤ i then throw (.unterminatedString start)
    else if (escapeMark hashes).isPrefixOf (t.drop i) then
      if t[i + hashes + 1]? = some '(' then do
        let closer ← closerWithin n t (i + hashes + 1)
        stringWithin n t start hashes multiline (closer + 1)
      else stringWithin n t start hashes multiline (i + hashes + 2)
    else if (closingMark hashes multiline).isPrefixOf (t.drop i) then return i + (quoteCount multiline + hashes)
    else do
      let c ← answered (charAt t i)
      if c = '\n' ∧ multiline = false then throw (.unterminatedString start)
      else stringWithin n t start hashes multiline (i + 1)
termination_by structural x => x

/-- The offset of the bracket that closes the one at `i`. -/
def closerWithin : Nat → Text → Nat → BoundedScan Nat
  | 0, _, _ => unanswered
  | n + 1, t, i => do
    let opener ← answered (charAt t i)
    match closerOf? opener with
    | some closer => groupWithin n t i opener closer [] (i + 1)
    | none => throw (.noOpener opener i)
termination_by structural x => x

/-- The offset of the last of the closers that a group read up to `i` waits for, of which `closer` is the next. -/
def groupWithin : Nat → Text → Nat → Char → Char → List Char → Nat → BoundedScan Nat
  | 0, _, _, _, _, _, _ => unanswered
  | n + 1, t, start, opener, closer, rest, i =>
    if t.length ≤ i then throw (.unbalanced opener start)
    else do
      match ← literalWithin n t i with
      | some stop => groupWithin n t start opener closer rest stop
      | none =>
        let c ← answered (charAt t i)
        match closerOf? c with
        | some inner => groupWithin n t start opener inner (closer :: rest) (i + 1)
        | none =>
          if isCloser c then
            if c ≠ closer then throw (.mismatched c i)
            else
              match rest with
              | [] => return i
              | next :: rest => groupWithin n t start opener next rest (i + 1)
          else groupWithin n t start opener closer rest (i + 1)
termination_by structural x => x

end

/-- The comments and string literals from `i` on. -/
def spansWithin : Nat → Text → Nat → BoundedScan (List Span)
  | 0, _, _ => unanswered
  | n + 1, t, i =>
    if t.length ≤ i then return []
    else do
      match ← literalWithin n t i with
      | some stop => return ⟨i, stop⟩ :: (← spansWithin n t stop)
      | none => spansWithin n t (i + 1)

/-- The first offset from `i` on that is neither blank nor in a comment, or `stop`. -/
def triviaWithin : Nat → Text → Nat → Nat → BoundedScan Nat
  | 0, _, _, _ => unanswered
  | n + 1, t, stop, i =>
    if stop ≤ i then return stop
    else do
      let c ← answered (charAt t i)
      if Text.isBlank c then triviaWithin n t stop (i + 1)
      else if opensComment (t.drop i) then
        let next ← literalWithin n t i
        triviaWithin n t stop (next.getD (i + 1))
      else return i

/-- The elements from `i` up to `closer`; `current` is the one being read. -/
def elementsWithin : Nat → Text → Nat → Option Span → Nat → BoundedScan (List Element)
  | 0, _, _, _, _ => unanswered
  | n + 1, t, closer, current, i =>
    if closer ≤ i then return closeElement current none
    else do
      match ← literalWithin n t i with
      | some stop =>
        elementsWithin n t closer (if opensComment (t.drop i) then current else extend current i stop) stop
      | none =>
        let c ← answered (charAt t i)
        if (closerOf? c).isSome then
          let inner ← closerWithin n t i
          elementsWithin n t closer (extend current i (inner + 1)) (inner + 1)
        else if c = ',' then
          if current.isNone then throw (.emptyElement i)
          else return closeElement current (some i) ++ (← elementsWithin n t closer none (i + 1))
        else if Text.isBlank c then elementsWithin n t closer current (i + 1)
        else elementsWithin n t closer (extend current i (i + 1)) (i + 1)

def argumentWithin (n : Nat) (t : Text) (element : Element) : BoundedScan Argument :=
  match label? (t.slice element.span.start element.span.stop) with
  | none => return ⟨none, element.span, element.span, element.comma⟩
  | some (name, m) => do
    let start ← triviaWithin n t element.span.stop (element.span.start + m)
    return ⟨some name, element.span, ⟨start, element.span.stop⟩, element.comma⟩

/-- The list that the bracket at `opener` opens. -/
def listWithin (n : Nat) (t : Text) (opener : Nat) : BoundedScan ArgumentList := do
  let closer ← closerWithin n t opener
  let elements ← elementsWithin n t closer none (opener + 1)
  let items ← elements.mapM (argumentWithin n t)
  return ⟨opener, closer, items⟩

def indexWithin (n : Nat) (t : Text) : BoundedScan LiteralIndex := do
  let spans ← spansWithin n t 0
  return ⟨spans.toArray⟩

variable {α β : Type} {t : Text} {n i start hashes : Nat} {multiline : Bool} {opener closer c : Char}
  {expected rest : List Char}

@[simp] lemma answered_ok_bind (a : α) (f : α → BoundedScan β) : (answered (.ok a) >>= f) = f a := rfl

lemma answered_bind {r : Scan α} {f : α → BoundedScan β} {g : α → Scan β}
    (h : ∀ a, r = .ok a → f a = answered (g a)) : (answered r >>= f) = answered (r.bind g) := by
  cases r with
  | error e => rfl
  | ok a => exact h a rfl

lemma charAt_eq (h : t[i]? = some c) : charAt t i = .ok c := by
  rw [charAt, h]

lemma countHashes_eq (h : hashRun t < t.length) : countHashes t = .ok (hashRun t) := by
  fun_induction hashRun t with
  | case1 t ih =>
    rw [countHashes, ih (by simpa using h)]
    rfl
  | case2 t ht =>
    cases t with
    | nil => simp at h
    | cons c t =>
      rw [countHashes]
      exact fun hc => ht t (by rw [hc])

lemma skipLiteral?_bounds {stop : Nat} (h : skipLiteral? t i = .ok (some stop)) : i + 2 ≤ stop ∧ stop ≤ t.length := by
  obtain ⟨m, hm, rfl⟩ := skipLiteral?_eq_some.mp h
  obtain ⟨hlow, hhigh⟩ := literalLength?_bounds hm
  rw [List.length_drop] at hhigh
  omega

section Runs

variable {frame : Frame} {below : List Frame}

lemma run_at_end (h : t.length ≤ i) : run 0 i (frame :: below) (t.drop i) = .error frame.unfinished := by
  rw [List.drop_eq_nil_of_le h, run]

lemma findClosing_eq_run {k : Char} (hc : t[i]? = some c) (hk : closerOf? c = some k) :
    findClosing t i = (run 0 (i + 1) [.group i c [k]] (t.drop (i + 1))).map (· - 1) := by
  have hmoved : run 0 (i + 1) [.group i c [k]] (t.drop (i + 1)) =
      Scan.from i ((run 0 1 [.group 0 c [k]] (t.drop (i + 1))).map (i + ·)) :=
    run_moved i 0 1 [.group 0 c [k]] (t.drop (i + 1))
  simp only [findClosing, drop_eq_cons.mp hc, groupLength, hk, hmoved]
  cases run 0 1 [.group 0 c [k]] (t.drop (i + 1)) <;> rfl

lemma skipLiteral?_eq_run (h : opening? (t.drop i) = some (.string hashes multiline)) :
    skipLiteral? t i = (run 0 (i + (hashes + quoteCount multiline)) [.string i hashes multiline]
      (t.drop (i + (hashes + quoteCount multiline)))).map some := by
  have hmoved : run (hashes + quoteCount multiline) i [.string i hashes multiline] (t.drop i) =
      Scan.from i ((run (hashes + quoteCount multiline) 0 [.string 0 hashes multiline] (t.drop i)).map (i + ·)) :=
    run_moved i (hashes + quoteCount multiline) 0 [.string 0 hashes multiline] (t.drop i)
  rw [← List.drop_drop, ← run_drop, hmoved]
  simp only [skipLiteral?, literalLength?, h]
  cases run (hashes + quoteCount multiline) 0 [.string 0 hashes multiline] (t.drop i) <;> rfl

lemma run_at_interpolation (h : (escapeMark hashes).isPrefixOf (t.drop i) = true)
    (hc : t[i + hashes + 1]? = some '(') :
    run 0 i [.string start hashes multiline] (t.drop i) = (findClosing t (i + hashes + 1)).bind fun closer =>
      run 0 (closer + 1) [.string start hashes multiline] (t.drop (closer + 1)) := by
  have hi : i < t.length := by
    obtain ⟨hlt, -⟩ := List.getElem?_eq_some_iff.mp hc
    omega
  have hstep := stringStep_escape i start hashes multiline [] h
  rw [List.getElem?_drop, ← Nat.add_assoc, if_pos hc] at hstep
  -- the group is read first, and then the rest of the string
  have hstack := @run_stack 0 (i + hashes + 1 + 1) [.group (i + hashes + 1) '(' [')']] (t.drop (i + hashes + 1 + 1))
    [.string start hashes multiline] (List.cons_ne_nil _ _)
  rw [run_onward (by simpa using hi) hstep, List.drop_drop, findClosing_eq_run hc rfl]
  refine hstack.trans ?_
  cases hrun : run 0 (i + hashes + 1 + 1) [.group (i + hashes + 1) '(' [')']] (t.drop (i + hashes + 1 + 1)) with
  | error e => rfl
  | ok q =>
    obtain ⟨hlow, -⟩ := run_bounds hrun (.inl (Nat.zero_le _))
    have hq : q - 1 + 1 = q := by omega
    have hpast : i + hashes + 1 + 1 + (q - (i + hashes + 1 + 1)) = q := by omega
    simp only [Except.bind, Except.map, List.drop_drop, hq, hpast]

lemma run_at_escape (hi : i < t.length) (h : (escapeMark hashes).isPrefixOf (t.drop i) = true)
    (hc : t[i + hashes + 1]? ≠ some '(') : run 0 i [.string start hashes multiline] (t.drop i) =
      run 0 (i + hashes + 2) [.string start hashes multiline] (t.drop (i + hashes + 2)) := by
  have hstep := stringStep_escape i start hashes multiline [] h
  rw [List.getElem?_drop, ← Nat.add_assoc, if_neg hc] at hstep
  rw [run_onward (by simpa using hi) hstep, List.drop_drop]
  rfl

lemma run_at_closingMark (h : (closingMark hashes multiline).isPrefixOf (t.drop i) = true) :
    run 0 i [.string start hashes multiline] (t.drop i) = .ok (i + (quoteCount multiline + hashes)) := by
  obtain ⟨z, hz⟩ := List.isPrefixOf_iff_prefix.mp h
  rw [← hz, run_closingMark, closingMark_length]

lemma run_at_char (hc : t[i]? = some c) (hescape : ¬(escapeMark hashes).isPrefixOf (t.drop i) = true)
    (hclose : ¬(closingMark hashes multiline).isPrefixOf (t.drop i) = true) :
    run 0 i [.string start hashes multiline] (t.drop i) =
      if c = '\n' ∧ multiline = false then .error (.unterminatedString start)
      else run 0 (i + 1) [.string start hashes multiline] (t.drop (i + 1)) := by
  rw [drop_eq_cons.mp hc] at hescape hclose ⊢
  simp only [run, step, stringStep, if_neg hescape, if_neg hclose, List.head?_cons, Option.some.injEq]
  split_ifs <;> rfl

/-- In code, a literal is skipped whole, and all else is read one character after the other. -/
lemma run_at_code (hc : t[i]? = some c) : run 0 i (.group start opener expected :: below) (t.drop i) =
    (skipLiteral? t i).bind fun found => found.elim
      ((bracketStep i start opener expected below c).bind fun move =>
        run move.extra (i + 1) move.stack (t.drop (i + 1)))
      fun stop => run 0 stop (.group start opener expected :: below) (t.drop stop) := by
  rw [skipLiteral?, drop_eq_cons.mp hc, run_code, ← drop_eq_cons.mp hc]
  cases literalLength? (t.drop i) with
  | error e => rfl
  | ok found =>
    cases found with
    | none => rfl
    | some n => simp [Scan.from, Except.map, Except.mapError, Except.bind, List.drop_drop]

end Runs

/-- So many calls and rounds are enough wherever there are two for each character that is left. A group takes one more,
since it asks for a literal where it stands, before it has read anything. -/
structure Suffices (t : Text) (n : Nat) : Prop where
  literal : ∀ i, 2 * (t.length - i) + 1 ≤ n → literalWithin n t i = answered (skipLiteral? t i)
  string : ∀ start hashes multiline i, 2 * (t.length - i) + 1 ≤ n → stringWithin n t start hashes multiline i =
    answered (run 0 i [.string start hashes multiline] (t.drop i))
  closer : ∀ i, 2 * (t.length - i) + 1 ≤ n → closerWithin n t i = answered (findClosing t i)
  group : ∀ start opener closer rest i, 2 * (t.length - i) + 2 ≤ n → groupWithin n t start opener closer rest i =
    answered ((run 0 i [.group start opener (closer :: rest)] (t.drop i)).map (· - 1))

namespace Suffices

lemma literal_step (hs : Suffices t n) (hn : 2 * (t.length - i) + 1 ≤ n + 1) :
    literalWithin (n + 1) t i = answered (skipLiteral? t i) := by
  rw [literalWithin]
  cases ho : opening? (t.drop i) with
  | none =>
    rw [skipLiteral?, literalLength?, ho]
    rfl
  | some opening =>
    cases opening with
    | lineComment =>
      rw [skipLiteral?, literalLength?, ho]
      rfl
    | blockComment =>
      rw [skipLiteral?, literalLength?, ho]
      cases blockCommentLength? 0 (t.drop i) <;> rfl
    | string hashes multiline =>
      obtain rfl := hashes_eq_of_opening? ho
      -- behind the hashes stands a quote, so that their count ends within the text
      obtain ⟨hquote, -⟩ := List.getElem?_eq_some_iff.mp (opening?_quote ho)
      have hlen : i + hashRun (t.drop i) < t.length := by
        rw [List.length_drop] at hquote
        omega
      have hpos := quoteCount_pos multiline
      have hstring := hs.string i (hashRun (t.drop i)) multiline (i + (hashRun (t.drop i) + quoteCount multiline))
        (by omega)
      rw [skipLiteral?_eq_run ho]
      simp only [countHashes_eq hquote]
      change (stringWithin n t i _ _ _ >>= fun stop => pure (some stop)) = _
      rw [hstring]
      exact answered_bind fun stop _ => rfl

lemma string_step (hs : Suffices t n) (hn : 2 * (t.length - i) + 1 ≤ n + 1) :
    stringWithin (n + 1) t start hashes multiline i =
      answered (run 0 i [.string start hashes multiline] (t.drop i)) := by
  rw [stringWithin]
  by_cases hi : t.length ≤ i
  · rw [if_pos hi, run_at_end hi]
    rfl
  · have onward : ∀ j, i < j → stringWithin n t start hashes multiline j =
        answered (run 0 j [.string start hashes multiline] (t.drop j)) :=
      fun j hj => hs.string start hashes multiline j (by omega)
    rw [if_neg hi]
    by_cases hescape : (escapeMark hashes).isPrefixOf (t.drop i) = true
    · rw [if_pos hescape]
      by_cases hc : t[i + hashes + 1]? = some '('
      · rw [if_pos hc, run_at_interpolation hescape hc, hs.closer (i + hashes + 1) (by omega)]
        refine answered_bind fun closer hcloser => onward _ ?_
        have := (findClosing_bounds hcloser).1
        omega
      · rw [if_neg hc, onward _ (by omega), run_at_escape (Nat.lt_of_not_le hi) hescape hc]
    · rw [if_neg hescape]
      by_cases hclose : (closingMark hashes multiline).isPrefixOf (t.drop i) = true
      · rw [if_pos hclose, run_at_closingMark hclose]
        rfl
      · have hc : t[i]? = some t[i] := List.getElem?_eq_getElem (Nat.lt_of_not_le hi)
        rw [if_neg hclose, charAt_eq hc, answered_ok_bind, run_at_char hc hescape hclose]
        split_ifs
        · rfl
        · exact onward _ (by omega)

lemma closer_step (hs : Suffices t n) (hn : 2 * (t.length - i) + 1 ≤ n + 1) :
    closerWithin (n + 1) t i = answered (findClosing t i) := by
  rw [closerWithin]
  cases hc : t[i]? with
  | none =>
    rw [charAt, hc, findClosing, List.drop_eq_nil_of_le (List.getElem?_eq_none_iff.mp hc)]
    rfl
  | some c =>
    obtain ⟨hi, -⟩ := List.getElem?_eq_some_iff.mp hc
    rw [charAt_eq hc, answered_ok_bind]
    cases hk : closerOf? c with
    | none =>
      simp only [findClosing, drop_eq_cons.mp hc, groupLength, hk]
      rfl
    | some k =>
      rw [findClosing_eq_run hc hk]
      exact hs.group i c k [] (i + 1) (by omega)

lemma group_step (hs : Suffices t n) (hn : 2 * (t.length - i) + 2 ≤ n + 1) :
    groupWithin (n + 1) t start opener closer rest i =
      answered ((run 0 i [.group start opener (closer :: rest)] (t.drop i)).map (· - 1)) := by
  unfold groupWithin
  by_cases hi : t.length ≤ i
  · rw [if_pos hi, run_at_end hi]
    rfl
  · have onward : ∀ closer rest j, i < j → groupWithin n t start opener closer rest j =
        answered ((run 0 j [.group start opener (closer :: rest)] (t.drop j)).map (· - 1)) :=
      fun closer rest j hj => hs.group start opener closer rest j (by omega)
    have hc : t[i]? = some t[i] := List.getElem?_eq_getElem (Nat.lt_of_not_le hi)
    rw [if_neg hi, run_at_code hc, hs.literal i (by omega)]
    cases hl : skipLiteral? t i with
    | error e => rfl
    | ok found =>
      rw [answered_ok_bind]
      cases found with
      | some stop =>
        have := skipLiteral?_bounds hl
        exact onward closer rest stop (by omega)
      | none =>
        simp only [charAt_eq hc, answered_ok_bind, Except.bind, Option.elim, bracketStep]
        cases closerOf? t[i] with
        | some inner => exact onward inner (closer :: rest) (i + 1) (by omega)
        | none =>
          cases isCloser t[i] with
          | false => exact onward closer rest (i + 1) (by omega)
          | true =>
            by_cases hne : t[i] ≠ closer
            · simp only [if_true, if_pos hne]
              rfl
            · simp only [if_true, if_neg hne]
              -- the closer that was waited for, the last one or not
              cases rest with
              | nil =>
                simp only [if_true]
                rw [run_nil (Nat.zero_le _)]
                rfl
              | cons next rest => exact onward next rest (i + 1) (by omega)

end Suffices

theorem rounds_suffice (t : Text) (n : Nat) : Suffices t n := by
  induction n with
  | zero => exact ⟨fun i h => by omega, fun _ _ _ i h => by omega, fun i h => by omega, fun _ _ _ _ i h => by omega⟩
  | succ n ih =>
    exact ⟨fun i => ih.literal_step, fun start hashes multiline i => ih.string_step, fun i => ih.closer_step,
      fun start opener closer rest i => ih.group_step⟩

section Readers

variable {stop : Nat} {current : Option Span}

lemma literalSpansFrom_skipping (hc : t[i]? = some c) : literalSpansFrom 0 i (t.drop i) =
    (skipLiteral? t i).bind fun found => found.elim (literalSpansFrom 0 (i + 1) (t.drop (i + 1)))
      fun stop => (literalSpansFrom 0 stop (t.drop stop)).map (⟨i, stop⟩ :: ·) := by
  rw [skipLiteral?, drop_eq_cons.mp hc, literalSpansFrom]
  cases hl : literalLength? (c :: t.drop (i + 1)) with
  | error e => rfl
  | ok found =>
    cases found with
    | none => rfl
    | some m =>
      have hm := (literalLength?_bounds hl).1
      have hnext : i + 1 + (m - 1) = i + m := by omega
      simp only [Scan.from, Except.map, Except.mapError, Except.bind, Option.map, Option.elim]
      rw [literalSpansFrom_drop (m - 1), List.drop_drop, hnext]

theorem spansWithin_eq (hn : 2 * (t.length - i) + 2 ≤ n) :
    spansWithin n t i = answered (literalSpansFrom 0 i (t.drop i)) := by
  induction n generalizing i with
  | zero => omega
  | succ n ih =>
    rw [spansWithin]
    by_cases hi : t.length ≤ i
    · rw [if_pos hi, List.drop_eq_nil_of_le hi]
      rfl
    · have hc : t[i]? = some t[i] := List.getElem?_eq_getElem (Nat.lt_of_not_le hi)
      rw [if_neg hi, (rounds_suffice t n).literal i (by omega), literalSpansFrom_skipping hc]
      refine answered_bind fun found hl => ?_
      cases found with
      | none => exact ih (by omega)
      | some stop =>
        have := skipLiteral?_bounds hl
        simp only [@ih stop (by omega)]
        exact answered_bind fun spans _ => rfl

lemma triviaEndFrom_skipping (hc : t[i]? = some c) : triviaEndFrom stop 0 i (t.drop i) =
    if stop ≤ i then .ok stop
    else if Text.isBlank c then triviaEndFrom stop 0 (i + 1) (t.drop (i + 1))
    else if opensComment (t.drop i) then (skipLiteral? t i).bind fun next =>
      triviaEndFrom stop 0 (next.getD (i + 1)) (t.drop (next.getD (i + 1)))
    else .ok i := by
  rw [skipLiteral?, drop_eq_cons.mp hc, triviaEndFrom]
  cases hl : literalLength? (c :: t.drop (i + 1)) with
  | error e => rfl
  | ok next =>
    cases next with
    | none => rfl
    | some m =>
      obtain ⟨hlow, hhigh⟩ := literalLength?_bounds hl
      rw [List.length_cons] at hhigh
      have hnext : i + 1 + (m - 1) = i + m := by omega
      simp only [Scan.from, Except.map, Except.mapError, Except.bind, Option.map, Option.getD]
      rw [@triviaEndFrom_drop (m - 1) (t.drop (i + 1)) stop (i + 1) (by omega), List.drop_drop, hnext]

theorem triviaWithin_eq (hn : 2 * (t.length - i) + 2 ≤ n) :
    triviaWithin n t stop i = answered (triviaEndFrom stop 0 i (t.drop i)) := by
  induction n generalizing i with
  | zero => omega
  | succ n ih =>
    rw [triviaWithin]
    cases hc : t[i]? with
    | none =>
      rw [charAt, hc, List.drop_eq_nil_of_le (List.getElem?_eq_none_iff.mp hc), triviaEndFrom]
      by_cases hs : stop ≤ i
      · rw [if_pos hs, if_neg (Nat.not_lt_of_le hs)]
        rfl
      · rw [if_neg hs, if_pos (Nat.lt_of_not_le hs)]
        rfl
    | some c =>
      obtain ⟨hi, -⟩ := List.getElem?_eq_some_iff.mp hc
      rw [charAt_eq hc, answered_ok_bind, triviaEndFrom_skipping hc, (rounds_suffice t n).literal i (by omega)]
      split_ifs
      · rfl
      · exact ih (by omega)
      · refine answered_bind fun next hl => ih ?_
        cases next with
        | none =>
          rw [Option.getD_none]
          omega
        | some stop =>
          have := skipLiteral?_bounds hl
          rw [Option.getD_some]
          omega
      · rfl

lemma elementsFrom_skipping (hi : i < stop) (hc : t[i]? = some c) : elementsFrom stop 0 i current (t.drop i) =
    (skipLiteral? t i).bind fun found => found.elim
      (if (closerOf? c).isSome then (findClosing t i).bind fun inner =>
          elementsFrom stop 0 (inner + 1) (extend current i (inner + 1)) (t.drop (inner + 1))
        else if c = ',' then
          if current.isNone then .error (.emptyElement i)
          else (elementsFrom stop 0 (i + 1) none (t.drop (i + 1))).map (closeElement current (some i) ++ ·)
        else if Text.isBlank c then elementsFrom stop 0 (i + 1) current (t.drop (i + 1))
        else elementsFrom stop 0 (i + 1) (extend current i (i + 1)) (t.drop (i + 1)))
      fun e => elementsFrom stop 0 e (if opensComment (t.drop i) then current else extend current i e) (t.drop e) := by
  rw [skipLiteral?, findClosing, drop_eq_cons.mp hc, elementsFrom, if_neg (Nat.not_le_of_lt hi)]
  cases hl : literalLength? (c :: t.drop (i + 1)) with
  | error e => rfl
  | ok found =>
    cases found with
    | some m =>
      have hm := (literalLength?_bounds hl).1
      have hnext : i + 1 + (m - 1) = i + m := by omega
      simp only [Scan.from, Except.map, Except.mapError, Except.bind, Option.map, Option.elim]
      rw [elementsFrom_drop stop (m - 1), List.drop_drop, hnext]
    | none =>
      cases hg : groupLength (c :: t.drop (i + 1)) with
      | error e => rfl
      | ok m =>
        have hm := (groupLength_bounds hg).1
        have hnext : i + 1 + (m - 1) = i + m := by omega
        have hlast : i + m - 1 + 1 = i + m := by omega
        simp only [Scan.from, Except.map, Except.mapError, Except.bind, Option.map, Option.elim, hlast]
        rw [elementsFrom_drop stop (m - 1), List.drop_drop, hnext]

theorem elementsWithin_eq (hs : stop ≤ t.length) (hn : 2 * (t.length - i) + 2 ≤ n) :
    elementsWithin n t stop current i = answered (elementsFrom stop 0 i current (t.drop i)) := by
  induction n generalizing i current with
  | zero => omega
  | succ n ih =>
    rw [elementsWithin]
    by_cases hi : stop ≤ i
    · rw [if_pos hi]
      cases t.drop i with
      | nil => rfl
      | cons c r =>
        rw [elementsFrom, if_pos hi]
        rfl
    · have hc : t[i]? = some t[i] := List.getElem?_eq_getElem (by omega)
      rw [if_neg hi, (rounds_suffice t n).literal i (by omega), elementsFrom_skipping (Nat.lt_of_not_le hi) hc]
      refine answered_bind fun found hl => ?_
      cases found with
      | some e =>
        have := skipLiteral?_bounds hl
        exact ih (by omega)
      | none =>
        simp only [charAt_eq hc, answered_ok_bind, Option.elim, (rounds_suffice t n).closer i (by omega)]
        split_ifs
        · refine answered_bind fun inner hinner => ih ?_
          have := (findClosing_bounds hinner).1
          omega
        · rfl
        · rw [ih (by omega)]
          exact answered_bind fun elements _ => rfl
        · exact ih (by omega)
        · exact ih (by omega)

lemma argumentWithin_eq (hn : 2 * t.length + 2 ≤ n) (element : Element) :
    argumentWithin n t element = answered (argumentOf t element) := by
  rw [argumentWithin, argumentOf]
  cases label? (t.slice element.span.start element.span.stop) with
  | none => rfl
  | some label =>
    obtain ⟨name, m⟩ := label
    simp only [triviaWithin_eq (show 2 * (t.length - (element.span.start + m)) + 2 ≤ n by omega)]
    exact answered_bind fun start _ => rfl

lemma mapM_answered {f : α → BoundedScan β} {g : α → Scan β} (h : ∀ a, f a = answered (g a)) (l : List α) :
    l.mapM f = answered (l.mapM g) := by
  induction l with
  | nil => rfl
  | cons a l ih =>
    rw [List.mapM_cons, List.mapM_cons, h, ih]
    exact answered_bind fun b _ => answered_bind fun bs _ => rfl

theorem listWithin_eq (hn : 2 * t.length + 2 ≤ n) (opener : Nat) :
    listWithin n t opener = answered (splitArguments t opener) := by
  rw [listWithin, splitArguments, (rounds_suffice t n).closer opener (by omega)]
  refine answered_bind fun closer hcloser => ?_
  rw [elementsWithin_eq (Nat.le_of_lt (findClosing_bounds hcloser).2) (by omega)]
  refine answered_bind fun elements _ => ?_
  rw [mapM_answered (argumentWithin_eq hn)]
  exact answered_bind fun items _ => rfl

theorem indexWithin_eq (hn : 2 * t.length + 2 ≤ n) : indexWithin n t = answered (LiteralIndex.ofText t) := by
  rw [indexWithin, LiteralIndex.ofText, spansWithin_eq (by omega)]
  exact answered_bind fun spans _ => rfl

end Readers

/-- What the scanners find lies past the place that they were asked about and within the text. No place that they look
at is missing, and where `2 * t.length + 2` calls and rounds may be nested, every text has its answer, a result or a
fault. -/
theorem scanners_answer (t : Text) :
    (∀ i e, skipLiteral? t i = .ok (some e) → i + 2 ≤ e ∧ e ≤ t.length) ∧
    (∀ opener closer, findClosing t opener = .ok closer → opener < closer ∧ closer < t.length) ∧
    (∀ i, Structural (skipLiteral? t i)) ∧ Structural (LiteralIndex.ofText t) ∧
    (∀ opener o k, t[opener]? = some o → closerOf? o = some k →
      Structural (findClosing t opener) ∧ Structural (splitArguments t opener)) ∧
    ∀ n, 2 * t.length + 2 ≤ n →
      (∀ i, literalWithin n t i = answered (skipLiteral? t i)) ∧
      (∀ opener, closerWithin n t opener = answered (findClosing t opener)) ∧
      (∀ opener, listWithin n t opener = answered (splitArguments t opener)) ∧
      indexWithin n t = answered (LiteralIndex.ofText t) := by
  refine ⟨fun i e => skipLiteral?_bounds, fun opener closer => findClosing_bounds,
    fun i => ((literalLength?_structural _).map _).from i, (literalSpansFrom_structural 0 0 t).map _,
    fun opener o k ho hk => ⟨findClosing_structural hk (drop_eq_cons.mp ho), splitArguments_structural ho hk⟩,
    fun n hn => ⟨fun i => ?_, fun opener => ?_, listWithin_eq hn, indexWithin_eq hn⟩⟩
  · exact (rounds_suffice t n).literal i (by omega)
  · exact (rounds_suffice t n).closer opener (by omega)

def openEnded : Text := "(#\"\\#([x])\"#, y) \"\\(".toList

theorem scanners_answer_openEnded : skipLiteral? openEnded 1 = .ok (some 12) ∧ (1 + 2 ≤ 12 ∧ 12 ≤ openEnded.length) ∧
    findClosing openEnded 0 = .ok 15 ∧ (0 < 15 ∧ 15 < openEnded.length) ∧
    Structural (splitArguments openEnded 0) ∧ listWithin 42 openEnded 0 = answered (splitArguments openEnded 0) ∧
    literalWithin 42 openEnded 17 = answered (.error (.unbalanced '(' 19)) ∧
    indexWithin 42 openEnded = answered (.error (.unbalanced '(' 19)) := by
  have hskip : skipLiteral? openEnded 1 = .ok (some 12) := rfl
  have hclose : findClosing openEnded 0 = .ok 15 := rfl
  obtain ⟨hadvance, hwithin, -, -, hstruct, hanswer⟩ := scanners_answer openEnded
  obtain ⟨hliteral, -, hlist, hindex⟩ := hanswer 42 (by decide)
  exact ⟨hskip, hadvance 1 12 hskip, hclose, hwithin 0 15 hclose, (hstruct 0 '(' ')' rfl rfl).2, hlist 0,
    hliteral 17, hindex⟩

end PackageInstaller.Manifest
