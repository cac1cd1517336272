import PackageInstaller.Proofs.Clocks
import PackageInstaller.Proofs.Records

/-! Which records have a duration: those of phases that were begun, and then completed or failed, unless they were
begun when the clock showed zero. -/

namespace PackageInstaller

namespace Progress

/-- The name of which a move completes or fails the live record. -/
def Move.settled? : Move → Option Text
  | .complete name _ => some name
  | .fail name _ => some name
  | _ => none

/-- A move begins the record at a position, and the clock shows `now`. -/
def Begins (position : Nat) (now : Number) (p : Progress) (m : Move) : Prop :=
  (∃ name, m = .begin name) ∧ position = p.tracker.records.length ∧ now = p.clock.now

/-- A move completes or fails the record at a position. -/
def Settles (position : Nat) (p : Progress) (m : Move) : Prop :=
  ∃ name, m.settled? = some name ∧ p.tracker.live? name = some position

/-- In a run there is a move that does something to the progress that it finds. -/
def Happens (does : Progress → Move → Prop) (p : Progress) (moves : List Move) : Prop :=
  ∃ before m after, moves = before ++ m :: after ∧ does (p.moveAll before) m

/-- What a move reads off the clock, if it reads it. -/
def reading? (p : Progress) (m : Move) : Option Number :=
  match m with
  | .begin _ => some p.clock.now
  | .complete name _ => (p.tracker.live? name).map fun _ => p.clock.now
  | .fail name _ => (p.tracker.live? name).map fun _ => p.clock.now
  | _ => none

/-- All that a run reads off the clock, in order. -/
def readings (p : Progress) : List Move → List Number
  | [] => []
  | m :: moves => (p.reading? m).toList ++ readings (p.move m) moves

variable {does : Progress → Move → Prop} {p : Progress} {m : Move} {moves : List Move} {i : Nat} {now : Number}
  {r r' : PhaseRecord}

lemma happens_concat : Happens does p (moves ++ [m]) ↔ Happens does p moves ∨ does (p.moveAll moves) m := by
  constructor
  · rintro ⟨before, m', after, h, hdoes⟩
    rcases List.eq_nil_or_concat' after with rfl | ⟨after, last, rfl⟩
    · obtain ⟨rfl, hm⟩ := List.append_inj' h rfl
      obtain rfl := List.singleton_inj.mp hm
      exact .inr hdoes
    · rw [← List.cons_append, ← List.append_assoc] at h
      obtain ⟨rfl, -⟩ := List.append_inj' h rfl
      exact .inl ⟨before, m', after, rfl, hdoes⟩
  · rintro (⟨before, m', after, rfl, hdoes⟩ | hdoes)
    · exact ⟨before, m', after ++ [m], by simp, hdoes⟩
    · exact ⟨moves, m, [], rfl, hdoes⟩

lemma moveAll_concat (p : Progress) (moves : List Move) (m : Move) :
    p.moveAll (moves ++ [m]) = (p.moveAll moves).move m := moveAll_append p moves [m]

lemma readings_concat (p : Progress) (moves : List Move) (m : Move) :
    p.readings (moves ++ [m]) = p.readings moves ++ ((p.moveAll moves).reading? m).toList := by
  induction moves generalizing p with
  | nil => simp [readings, moveAll]
  | cons first moves ih =>
    rw [List.cons_append, readings, readings, ih, List.append_assoc]
    rfl

lemma Begins.reading? (h : Begins i now p m) : p.reading? m = some now := by
  obtain ⟨⟨name, rfl⟩, -, rfl⟩ := h
  rfl

lemma Settles.reading? (h : Settles i p m) : p.reading? m = some p.clock.now := by
  obtain ⟨name, hm, hlive⟩ := h
  cases m with
  | complete n detail =>
    obtain rfl := Option.some.inj hm
    rw [Progress.reading?, hlive, Option.map_some]
  | fail n error =>
    obtain rfl := Option.some.inj hm
    rw [Progress.reading?, hlive, Option.map_some]
  | _ => cases hm

lemma length_le_moveAll (p : Progress) (moves : List Move) :
    p.tracker.records.length ≤ (p.moveAll moves).tracker.records.length := by
  rw [← Tracker.length_names, ← Tracker.length_names]
  exact (names_moveAll p moves).length_le

/-- What one move makes of a record: it is new, or was there and may be settled now. -/
inductive Becomes (p : Progress) (m : Move) (i : Nat) (r' : PhaseRecord) : Prop
  | begun (h : Begins i p.clock.now p m) (hstarted : r'.started = some p.clock.now) (hended : r'.ended = none)
  | skipped (hi : i = p.tracker.records.length) (hno : ∀ now, ¬Begins i now p m) (hstarted : r'.started = none)
    (hended : r'.ended = none)
  | settled (r : PhaseRecord) (hr : p.tracker.records[i]? = some r) (h : Settles i p m)
    (hstarted : r'.started = r.started) (hended : r'.ended = some p.clock.now)
  | kept (r : PhaseRecord) (hr : p.tracker.records[i]? = some r) (h : ¬Settles i p m) (hstarted : r'.started = r.started)
    (hended : r'.ended = r.ended)

lemma becomes_add {r₀ : PhaseRecord} (hm : ¬Settles i p m) (h : (p.tracker.add r₀).records[i]? = some r)
    (hnew : i = p.tracker.records.length → Becomes p m i r₀) : Becomes p m i r := by
  rw [Tracker.add, List.getElem?_append] at h
  split_ifs at h with hi
  · exact .kept r h hm rfl rfl
  · rw [List.getElem?_singleton] at h
    split_ifs at h with hzero
    obtain rfl := Option.some.inj h
    exact hnew (by omega)

lemma becomes_settle {name : Text} {f : PhaseRecord → Number → PhaseRecord} (hm : m.settled? = some name)
    (hf : ∀ r now, (f r now).started = r.started ∧ (f r now).ended = some now)
    (h : (p.settle name f).tracker.records[i]? = some r') : Becomes p m i r' := by
  rcases p.settle_cases name f with ⟨heq, hno⟩ | ⟨j, r, hlive, hr, heq⟩
  · rw [heq] at h
    refine .kept r' h ?_ rfl rfl
    rintro ⟨n, hn, hlive⟩
    obtain rfl := Option.some.inj (hm.symm.trans hn)
    rw [hno i hlive] at h
    cases h
  · rw [heq, notify_tracker, Tracker.records_change] at h
    by_cases hj : i = j
    · subst hj
      rw [List.getElem?_set_self (List.getElem?_eq_some_iff.mp hr).1] at h
      obtain rfl := Option.some.inj h
      exact .settled r hr ⟨name, hm, hlive⟩ (hf _ _).1 (hf _ _).2
    · rw [List.getElem?_set_ne (Ne.symm hj)] at h
      refine .kept r' h ?_ rfl rfl
      rintro ⟨n, hn, hlive'⟩
      obtain rfl := Option.some.inj (hm.symm.trans hn)
      exact hj (Option.some.inj (hlive'.symm.trans hlive))

lemma becomes_move (h : (p.move m).tracker.records[i]? = some r') : Becomes p m i r' := by
  have hidle (hm : m.settled? = none) : ¬Settles i p m := by
    rintro ⟨name, hname, -⟩
    rw [hm] at hname
    cases hname
  cases m with
  | begin name =>
    rw [move, begin_tracker] at h
    exact becomes_add (hidle rfl) h fun hi => .begun ⟨⟨name, rfl⟩, hi, rfl⟩ rfl rfl
  | complete name detail =>
    refine becomes_settle rfl ?_ h
    exact fun _ _ => ⟨rfl, rfl⟩
  | fail name error =>
    refine becomes_settle rfl ?_ h
    exact fun _ _ => ⟨rfl, rfl⟩
  | skip name reason =>
    rw [move, skip_tracker] at h
    refine becomes_add (hidle rfl) h fun hi => .skipped hi ?_ rfl rfl
    rintro now ⟨⟨n, hn⟩, -⟩
    cases hn
  | note position detail =>
    rw [move, setDetail, Tracker.setDetail, Tracker.change, List.getElem?_modify] at h
    obtain ⟨r, hr, rfl⟩ := Option.map_eq_some_iff.mp h
    refine .kept r hr (hidle rfl) ?_ ?_ <;> split_ifs <;> rfl
  | listen listener => exact .kept r' h (hidle rfl) rfl rfl
  | setClock now => exact .kept r' h (hidle rfl) rfl rfl

lemma Begins.lt (h : Begins i now p m) : i < (p.move m).tracker.records.length := by
  obtain ⟨⟨name, rfl⟩, rfl, -⟩ := h
  rw [move, begin_tracker, Tracker.add, List.length_append]
  exact Nat.lt_succ_self _

lemma Settles.lt (hp : p.Reachable) (h : Settles i p m) : i < p.tracker.records.length := by
  obtain ⟨name, -, hlive⟩ := h
  obtain ⟨r, hr, -⟩ := (hp.tracks name).record hlive
  exact (List.getElem?_eq_some_iff.mp hr).1

lemma lt_of_happens (hlt : ∀ q m, q.Reachable → does q m → i < (q.move m).tracker.records.length) (hp : p.Reachable)
    (h : Happens does p moves) : i < (p.moveAll moves).tracker.records.length := by
  obtain ⟨before, m, after, rfl, hdoes⟩ := h
  rw [moveAll_append]
  exact Nat.lt_of_lt_of_le (hlt _ _ (hp.moveAll before) hdoes) (length_le_moveAll _ after)

/-- The times of a record are told by the run: when it was begun, whether it was settled, and that they were read in
this order. -/
structure Timed (p : Progress) (moves : List Move) (i : Nat) (r : PhaseRecord) : Prop where
  started : ∀ now, r.started = some now ↔ Happens (Begins i now) p moves
  ended : r.ended.isSome ↔ Happens (Settles i) p moves
  read : (r.started.toList ++ r.ended.toList).Sublist (p.readings moves)

lemma timed_new (hp : p.Reachable) (hi : i = (p.moveAll moves).tracker.records.length) (hended : r.ended = none)
    (hstarted : ∀ now, r.started = some now ↔ Begins i now (p.moveAll moves) m)
    (hread : r.started.toList.Sublist (p.readings (moves ++ [m]))) : Timed p (moves ++ [m]) i r := by
  have hbegins (now : Number) : ¬Happens (Begins i now) p moves := fun h =>
    absurd (lt_of_happens (fun _ _ _ => Begins.lt) hp h) (hi ▸ Nat.lt_irrefl _)
  have hsettles : ¬Happens (Settles i) p (moves ++ [m]) := by
    rw [happens_concat]
    rintro (h | h)
    · have hlt := lt_of_happens (fun q m hq hs => Nat.lt_of_lt_of_le (Settles.lt hq hs) (length_le_moveAll q [m])) hp h
      omega
    · have hlt := Settles.lt (hp.moveAll moves) h
      omega
  refine ⟨fun now => ?_, ?_, ?_⟩
  · rw [happens_concat, hstarted]
    exact (or_iff_right (hbegins now)).symm
  · rw [hended]
    exact iff_of_false (by simp) hsettles
  · rw [hended, Option.toList_none, List.append_nil]
    exact hread

lemma timed_moveAll (clock : Clock) (listeners : List Listener) (moves : List Move)
    (h : ((start clock listeners).moveAll moves).tracker.records[i]? = some r) :
    Timed (start clock listeners) moves i r := by
  have hp : (start clock listeners).Reachable := .start clock listeners
  induction moves using List.reverseRecOn generalizing r with
  | nil => cases h
  | append_singleton moves m ih =>
    rw [moveAll_concat] at h
    have hreadings := readings_concat (start clock listeners) moves m
    -- a record that was there is not begun again
    have hbegins (r₀ : PhaseRecord) (hr : ((start clock listeners).moveAll moves).tracker.records[i]? = some r₀)
        (now : Number) : ¬Begins i now ((start clock listeners).moveAll moves) m := by
      rintro ⟨-, rfl, -⟩
      exact absurd (List.getElem?_eq_some_iff.mp hr).1 (Nat.lt_irrefl _)
    cases becomes_move h with
    | begun hbegin hstarted hended =>
      refine timed_new hp hbegin.2.1 hended (fun now => ?_) ?_
      · rw [hstarted, Option.some.injEq]
        exact ⟨fun heq => heq ▸ hbegin, fun h => h.2.2.symm⟩
      · rw [hstarted, hreadings, hbegin.reading?]
        exact List.sublist_append_right _ _
    | skipped hi hno hstarted hended =>
      refine timed_new hp hi hended (fun now => ?_) ?_
      · exact iff_of_false (by simp [hstarted]) (hno now)
      · rw [hstarted]
        exact List.nil_sublist _
    | settled r₀ hr hsettles hstarted hended =>
      have ih := ih hr
      refine ⟨fun now => ?_, ?_, ?_⟩
      · rw [happens_concat, hstarted, ih.started]
        exact (or_iff_left (hbegins r₀ hr now)).symm
      · rw [happens_concat, hended]
        exact iff_of_true rfl (.inr hsettles)
      · rw [hstarted, hended, hreadings, hsettles.reading?]
        exact ((List.sublist_append_left _ _).trans ih.read).append (List.Sublist.refl _)
    | kept r₀ hr hsettles hstarted hended =>
      have ih := ih hr
      refine ⟨fun now => ?_, ?_, ?_⟩
      · rw [happens_concat, hstarted, ih.started]
        exact (or_iff_left (hbegins r₀ hr now)).symm
      · rw [happens_concat, hended, ih.ended]
        exact (or_iff_left hsettles).symm
      · rw [hstarted, hended, hreadings]
        exact ih.read.trans (List.sublist_append_left _ _)

end Progress

lemma PhaseRecord.counted_isSome {reading : Option Number} :
    (counted reading).isSome ↔ ∃ now, reading = some now ∧ now.isZero = false := by
  cases reading with
  | none => simp [counted]
  | some now => cases hzero : now.isZero <;> simp [counted, Option.filter, hzero]

lemma PhaseRecord.duration?_isSome (r : PhaseRecord) :
    r.duration?.isSome ↔ (counted r.started).isSome ∧ (counted r.ended).isSome := by
  rw [duration?]
  cases counted r.started with
  | none => simp
  | some started => cases counted r.ended <;> simp

lemma filterMap_around {α β : Type} {xs : List α} {x : α} {n : Nat} (f : α → Option β) (h : xs[n]? = some x) :
    xs.filterMap f = (xs.take n).filterMap f ++ (f x).toList ++ (xs.drop (n + 1)).filterMap f := by
  obtain ⟨hn, rfl⟩ := List.getElem?_eq_some_iff.mp h
  conv_lhs => rw [← List.take_append_drop n xs, List.drop_eq_getElem_cons hn, List.filterMap_append, List.filterMap_cons]
  cases f xs[n] <;> simp

namespace Progress

/-- Where a clock starts at zero or later and does not go back, the records with a duration are those that were
begun, when it did not show zero, and have been completed or failed. Each of these durations is in the total. -/
theorem duration_isSome_iff {clock : Clock} {listeners : List Listener} {moves : List Move}
    (h : Number.Ascending ((start clock listeners).readings moves)) :
    let p := start clock listeners
    let t := (p.moveAll moves).tracker
    (∀ i r, t.records[i]? = some r → (r.duration?.isSome ↔
      (∃ now, Happens (Begins i now) p moves ∧ now.isZero = false) ∧ Happens (Settles i) p moves)) ∧
    (∀ i r d, t.records[i]? = some r → r.duration? = some d → t.summary.total =
      (Number.sum ((t.records.take i).filterMap Tracker.countedDuration? ++ (if d.isZero then [] else [d]) ++
        (t.records.drop (i + 1)).filterMap Tracker.countedDuration?)).toCents) ∧
    ∀ steps, (Step.runAll p steps).progress = p.moveAll (Step.movesAll p steps) := by
  intro p t
  refine ⟨fun i r hr => ?_, fun i r d hr hd => ?_, Step.runAll_eq_moveAll p⟩
  · have htimed := timed_moveAll clock listeners moves hr
    simp only [r.duration?_isSome, PhaseRecord.counted_isSome, htimed.started]
    refine and_congr_right fun hstarted => ?_
    obtain ⟨a, ha, hzero⟩ := hstarted
    rw [← htimed.ended, Option.isSome_iff_exists]
    refine exists_congr fun b => and_iff_left_of_imp fun hb => ?_
    have hread := htimed.read
    rw [(htimed.started a).mpr ha, hb] at hread
    cases hended : b.isZero with
    | false => rfl
    | true => rw [h.isZero hread hended] at hzero; exact hzero
  · rw [Tracker.summary, filterMap_around _ hr, Tracker.countedDuration?, hd, PhaseRecord.counted]
    cases hzero : d.isZero <;> simp [Option.filter, hzero]

theorem duration_isSome_iff_later :
    let p := start ⟨.whole 1, .whole 1⟩ []
    let moves := [Move.begin ['b'], .complete ['b'] []]
    Number.Ascending (p.readings moves) ∧ Happens (Begins 0 (.whole 1)) p moves ∧ Happens (Settles 0) p moves ∧
      ∃ r, (p.moveAll moves).tracker.records[0]? = some r ∧ r.duration?.isSome := by
  intro p moves
  have hascending : Number.Ascending (p.readings moves) := by decide
  have hbegins : Happens (Begins 0 (.whole 1)) p moves := ⟨[], _, _, rfl, ⟨_, rfl⟩, rfl, rfl⟩
  have hsettles : Happens (Settles 0) p moves := ⟨[_], _, [], rfl, ['b'], rfl, rfl⟩
  obtain ⟨hiff, -⟩ := duration_isSome_iff hascending
  exact ⟨hascending, hbegins, hsettles, _, rfl, (hiff 0 _ rfl).mpr ⟨⟨_, hbegins, rfl⟩, hsettles⟩⟩

/-- A phase that is begun when the clock shows zero never has a duration. -/
theorem not_duration_isSome : ¬∀ (clock : Clock) (listeners : List Listener) (moves : List Move),
    let p := start clock listeners
    Number.Ascending (p.readings moves) → ∀ i r, (p.moveAll moves).tracker.records[i]? = some r →
      (r.duration?.isSome ↔ (∃ now, Happens (Begins i now) p moves) ∧ Happens (Settles i) p moves) := by
  intro h
  have hascending : Number.Ascending ((start ⟨.real 0, .real 0.25⟩ []).readings [.begin ['b'], .complete ['b'] []]) := by
    decide +kernel
  have hsome := (h _ _ _ hascending 0 _ rfl).mpr
    ⟨⟨_, [], _, _, rfl, ⟨_, rfl⟩, rfl, rfl⟩, [_], _, [], rfl, ['b'], rfl, rfl⟩
  have hnone : (PhaseRecord.mk ['b'] .completed (some (.real 0)) (some (.real (0 + 0.25))) [] none).duration?.isSome =
      false := by decide +kernel
  exact absurd (hnone.symm.trans hsome) (by decide)

end Progress

end PackageInstaller
