import PackageInstaller.Proofs.Records

/-! Listeners only observe. A run does to the records and the clock what it does when nobody listens, and every
listener is told the same: of each change, the record that it was made to. -/

namespace PackageInstaller

/-- The last record of a name. -/
def Tracker.current? (t : Tracker) (name : Text) : Option PhaseRecord :=
  (t.records.filter (·.name = name)).getLast?

namespace Progress

/-- The record that a move shows: the one that it was made to, as it is then. -/
def shown? (p : Progress) (m : Move) : Option PhaseRecord := m.name?.bind (p.move m).tracker.current?

def shownAll (p : Progress) : List Move → List PhaseRecord
  | [] => []
  | m :: rest => (p.shown? m).toList ++ shownAll (p.move m) rest

/-- A phase can always be begun and skipped, and completed or failed if there is one of the name. -/
def Move.Known (p : Progress) : Move → Prop
  | .begin _ => True
  | .skip _ _ => True
  | .complete name _ => name ∈ p.tracker.names
  | .fail name _ => name ∈ p.tracker.names
  | .note _ _ => False
  | .listen _ => False
  | .setClock _ => False

structure Alike (p q : Progress) : Prop where
  tracker : p.tracker = q.tracker
  clock : p.clock = q.clock

end Progress

namespace Step

mutual

/-- A step without the listeners that it adds. -/
def mute : Step → List Step
  | .setClock now => [.setClock now]
  | .begin name => [.begin name]
  | .complete name detail => [.complete name detail]
  | .fail name error => [.fail name error]
  | .skip name reason => [.skip name reason]
  | .listen _ => []
  | .phase name body detail failure => [.phase name (muteAll body) detail failure]

def muteAll : List Step → List Step
  | [] => []
  | step :: rest => mute step ++ muteAll rest

end

end Step

namespace Tracker

variable {t : Tracker} {r r' : PhaseRecord} {name : Text} {i : Nat}

lemma current?_add (t : Tracker) (r : PhaseRecord) : (t.add r).current? r.name = some r := by
  simp [current?, add]

lemma current?_isSome : (t.current? name).isSome ↔ name ∈ t.names := by
  rw [current?, List.getLast?_isSome, names]
  simp

lemma current?_set (hlast : LastAt t.names name i) (hr : t.records[i]? = some r) (hname : r'.name = name) :
    (t.change i fun _ => r').current? name = some r' := by
  obtain ⟨hlt, -⟩ := List.getElem?_eq_some_iff.mp hr
  have hbehind : (t.records.drop (i + 1)).filter (·.name = name) = [] := by
    refine List.filter_eq_nil_iff.mpr fun s hs => ?_
    obtain ⟨j, hj⟩ := List.mem_iff_getElem?.mp hs
    rw [List.getElem?_drop] at hj
    have := hlast.2 (i + 1 + j) (by omega)
    rw [names, List.getElem?_map, hj] at this
    simpa using this
  rw [current?, records_change, List.set_eq_take_append_cons_drop, if_pos hlt, List.filter_append,
    List.filter_cons_of_pos (by simpa using hname), hbehind, List.getLast?_concat]

end Tracker

namespace Progress

open Tracker

variable {p q : Progress} {name : Text} {position : Nat} {m : Move}

lemma Follows.heardBy (h : p.Follows name q) (ht : p.tracker.Tracks name) (hl : position < p.listeners.length) :
    q.heardBy position = p.heardBy position ++ (q.tracker.current? name).toList := by
  cases h with
  | idle hno =>
    have hnone : p.tracker.current? name = none := by
      rw [← Option.not_isSome_iff_eq_none, current?_isSome, ← ht.isSome_iff, Option.isSome_iff_exists]
      rintro ⟨i, hi⟩
      obtain ⟨r, hr, -⟩ := ht.record hi
      simp [hno i hi] at hr
    simp [hnone]
  | added clock r hr =>
    subst hr
    rw [heardBy_notify { p with clock := clock, tracker := p.tracker.add r } r hl, notify_tracker, current?_add]
    rfl
  | @changed clock i r r' hlive hr hname hstarted =>
    obtain ⟨s, hs, hsname⟩ := ht.record hlive
    obtain rfl : r = s := Option.some.inj (hr.symm.trans hs)
    rw [heardBy_notify { p with clock := clock, tracker := p.tracker.change i fun _ => r' } r' hl, notify_tracker,
      current?_set ((ht i).mp hlive) hr (hname.trans hsname)]
    rfl

lemma Follows.listeners (h : p.Follows name q) : q.listeners = p.listeners := by
  cases h with
  | idle _ => rfl
  | added _ _ _ => exact notify_listeners _ _
  | changed _ _ _ _ _ _ => exact notify_listeners _ _

lemma heardBy_move (ht : ∀ name, p.tracker.Tracks name) (hl : position < p.listeners.length) (m : Move) :
    (p.move m).heardBy position = p.heardBy position ++ (p.shown? m).toList ∧
      position < (p.move m).listeners.length := by
  cases hm : m.name? with
  | some name =>
    rw [shown?, hm, Option.bind_some, (move_follows hm).listeners]
    exact ⟨(move_follows hm).heardBy (ht name) hl, hl⟩
  | none =>
    rw [shown?, hm, Option.bind_none, Option.toList_none, List.append_nil]
    cases m with
    | note position detail => exact ⟨rfl, hl⟩
    | listen listener => exact ⟨rfl, Nat.lt_of_lt_of_le hl (List.prefix_append _ _).length_le⟩
    | setClock now => exact ⟨rfl, hl⟩
    | _ => simp [Move.name?] at hm

lemma heardBy_moveAll (ht : ∀ name, p.tracker.Tracks name) (hl : position < p.listeners.length) (moves : List Move) :
    (p.moveAll moves).heardBy position = p.heardBy position ++ p.shownAll moves := by
  induction moves generalizing p with
  | nil => exact (List.append_nil _).symm
  | cons m moves ih =>
    obtain ⟨hm, hl'⟩ := heardBy_move ht hl m
    rw [shownAll, ← List.append_assoc, ← hm]
    exact ih (fun name => tracks_move (ht name) m) hl'

lemma move_of_not_known (ht : ∀ name, p.tracker.Tracks name) (hm : m.name?.isSome) (h : ¬m.Known p) : p.move m = p := by
  cases m with
  | begin n => exact absurd trivial h
  | skip n reason => exact absurd trivial h
  | complete n detail =>
    change p.complete n detail = p
    exact settle_unknown (ht n) h _
  | fail n error =>
    change p.fail n error = p
    exact settle_unknown (ht n) h _
  | _ => simp [Move.name?] at hm

lemma mem_names_move (ht : ∀ name, p.tracker.Tracks name) (hm : m.name? = some name) :
    name ∈ (p.move m).tracker.names ↔ m.Known p := by
  -- completing and failing add no name
  have hsettled : (m.Known p ↔ name ∈ p.tracker.names) → (name ∈ (p.move m).tracker.names ↔ m.Known p) := by
    refine fun hiff => ⟨fun hmem => ?_, fun hknown => (names_move p m).subset (hiff.mp hknown)⟩
    by_contra hno
    rw [move_of_not_known ht (by rw [hm]; rfl) hno] at hmem
    exact hno (hiff.mpr hmem)
  cases m with
  | begin n =>
    obtain rfl := Option.some.inj hm
    simp [move, begin, add, Move.Known]
  | skip n reason =>
    obtain rfl := Option.some.inj hm
    simp [move, skip, add, Move.Known]
  | complete n detail => exact hsettled (by rw [← Option.some.inj hm, Move.Known])
  | fail n error => exact hsettled (by rw [← Option.some.inj hm, Move.Known])
  | _ => simp [Move.name?] at hm

lemma shown?_isSome (ht : ∀ name, p.tracker.Tracks name) (m : Move) : (p.shown? m).isSome ↔ m.Known p := by
  cases hm : m.name? with
  | none =>
    rw [shown?, hm]
    cases m <;> simp_all [Move.name?, Move.Known]
  | some name =>
    rw [shown?, hm, Option.bind_some, current?_isSome]
    exact mem_names_move ht hm

lemma shownAll_append (p : Progress) (before after : List Move) :
    p.shownAll (before ++ after) = p.shownAll before ++ (p.moveAll before).shownAll after := by
  induction before generalizing p with
  | nil => rfl
  | cons m before ih =>
    rw [List.cons_append, shownAll, ih, shownAll, List.append_assoc]
    rfl

namespace Alike

lemma notify (h : p.Alike q) (r : PhaseRecord) : (p.notify r).Alike (q.notify r) := by
  refine ⟨?_, ?_⟩
  · rw [notify_tracker, notify_tracker, h.tracker]
  · rw [notify_clock, notify_clock, h.clock]

lemma add (h : p.Alike q) (r : PhaseRecord) : (p.add r).Alike (q.add r) := by
  rw [Progress.add, Progress.add, h.tracker]
  refine notify ?_ r
  exact ⟨rfl, h.clock⟩

lemma advance (h : p.Alike q) : p.advance.Alike q.advance := ⟨h.tracker, congrArg Clock.next h.clock⟩

lemma settle (h : p.Alike q) (name : Text) (f : PhaseRecord → Number → PhaseRecord) :
    (p.settle name f).Alike (q.settle name f) := by
  rw [Progress.settle, Progress.settle, h.tracker, h.clock]
  cases q.tracker.live? name with
  | none => exact h
  | some i =>
    simp only
    cases q.tracker.records[i]? with
    | none => exact h
    | some r =>
      refine notify ?_ _
      exact ⟨rfl, h.advance.clock⟩

lemma move (h : p.Alike q) (m : Move) : (p.move m).Alike (q.move m) := by
  cases m with
  | begin name =>
    change (p.begin name).Alike (q.begin name)
    rw [Progress.begin, Progress.begin, h.clock]
    exact h.advance.add _
  | complete name detail =>
    change (p.complete name detail).Alike (q.complete name detail)
    exact h.settle name _
  | fail name error =>
    change (p.fail name error).Alike (q.fail name error)
    exact h.settle name _
  | skip name reason =>
    change (p.skip name reason).Alike (q.skip name reason)
    exact h.add _
  | note position detail => exact ⟨congrArg (·.setDetail position detail) h.tracker, h.clock⟩
  | listen listener => exact ⟨h.tracker, h.clock⟩
  | setClock now => exact ⟨h.tracker, congrArg (fun c => { c with now := now }) h.clock⟩

lemma shown? (h : p.Alike q) (m : Move) : p.shown? m = q.shown? m := by
  rw [Progress.shown?, Progress.shown?, (h.move m).tracker]

lemma moveAll (h : p.Alike q) (moves : List Move) : (p.moveAll moves).Alike (q.moveAll moves) := by
  induction moves generalizing p q with
  | nil => exact h
  | cons m moves ih => exact ih (h.move m)

lemma shownAll (h : p.Alike q) (moves : List Move) : p.shownAll moves = q.shownAll moves := by
  induction moves generalizing p q with
  | nil => rfl
  | cons m moves ih => rw [Progress.shownAll, Progress.shownAll, h.shown? m, ih (h.move m)]

end Alike

end Progress

namespace Step

open Progress

/-- Two runs that show the same, leave the same records and the same clock, and end alike. -/
structure Agree (p q : Progress) (a b : Result) (moves others : List Move) : Prop where
  alike : a.progress.Alike b.progress
  failure : a.failure = b.failure
  shown : p.shownAll moves = q.shownAll others

variable {p q : Progress} {name : Text} {body others : List Step} {detail failure : Option Text}

lemma runAll_append (p : Progress) (first rest : List Step) : runAll p (first ++ rest) =
    match (runAll p first).failure with
    | some error => ⟨(runAll p first).progress, some error⟩
    | none => runAll (runAll p first).progress rest := by
  induction first generalizing p with
  | nil => rfl
  | cons step first ih =>
    rw [List.cons_append, runAll, runAll]
    cases h : (run p step).failure with
    | some error => rfl
    | none => exact ih _

lemma movesAll_append (p : Progress) (first rest : List Step) : movesAll p (first ++ rest) =
    movesAll p first ++ match (runAll p first).failure with
      | some _ => []
      | none => movesAll (runAll p first).progress rest := by
  induction first generalizing p with
  | nil => rfl
  | cons step first ih =>
    rw [List.cons_append, movesAll, movesAll, runAll]
    cases h : (run p step).failure with
    | some error => simp
    | none =>
      simp only
      rw [ih, List.append_assoc]

lemma runAll_singleton (p : Progress) (step : Step) : runAll p [step] = run p step := by
  rw [runAll]
  rcases h : run p step with ⟨left, _ | error⟩ <;> rfl

lemma movesAll_singleton (p : Progress) (step : Step) : movesAll p [step] = moves p step := by
  rw [movesAll]
  cases (run p step).failure <;> simp [movesAll]

lemma Agree.of_move (h : p.Alike q) (m : Move) : Agree p q ⟨p.move m, none⟩ ⟨q.move m, none⟩ [m] [m] :=
  ⟨h.move m, rfl, h.shownAll [m]⟩

lemma Agree.phase (h : p.Alike q) (hbody : Agree (p.begin name) (q.begin name) (runAll (p.begin name) body)
      (runAll (q.begin name) others) (movesAll (p.begin name) body) (movesAll (q.begin name) others)) :
    Agree p q (run p (.phase name body detail failure)) (run q (.phase name others detail failure))
      (moves p (.phase name body detail failure)) (moves q (.phase name others detail failure)) := by
  -- what the body leaves as detail and how the phase is left are the same moves in both runs
  have hposition : p.tracker.records.length = q.tracker.records.length := by rw [h.tracker]
  have hnoting : noting p.tracker.records.length detail (runAll (p.begin name) body) =
      noting q.tracker.records.length detail (runAll (q.begin name) others) := by
    rw [noting, noting, hbody.failure, hposition]
  have hwithin : (within p name body detail failure).progress.Alike (within q name others detail failure).progress := by
    rw [← moveAll_noting, ← moveAll_noting, hnoting]
    exact hbody.alike.moveAll _
  have hfailure : (within p name body detail failure).failure = (within q name others detail failure).failure := by
    simp only [within, hbody.failure]
    cases hf : (runAll (q.begin name) others).failure with
    | some error => exact hbody.failure.trans hf |>.trans hf.symm
    | none => rfl
  have hleaving : leaving name p.tracker.records.length (within p name body detail failure) =
      leaving name q.tracker.records.length (within q name others detail failure) := by
    rw [leaving, leaving, hfailure, hposition, hwithin.tracker]
  refine ⟨?_, ?_, ?_⟩
  · rw [run_phase, run_phase]
    simp only
    rw [← move_leaving, ← move_leaving, hleaving]
    exact hwithin.move _
  · rw [run_phase, run_phase]
    exact hfailure
  · rw [moves, moves]
    simp only [hnoting, hleaving, List.append_assoc]
    have hend := hbody.alike.shownAll (noting q.tracker.records.length detail (runAll (q.begin name) others) ++
      [leaving name q.tracker.records.length (within q name others detail failure)])
    rw [runAll_eq_moveAll, runAll_eq_moveAll] at hend
    rw [shownAll, shownAll, h.shown?, shownAll_append (p.move _), shownAll_append (q.move _)]
    exact congrArg (_ ++ ·) (congrArg₂ (· ++ ·) hbody.shown hend)

mutual

theorem run_agree {p q : Progress} (h : p.Alike q) : ∀ step : Step,
    Agree p q (run p step) (runAll q (mute step)) (moves p step) (movesAll q (mute step))
  | .setClock now => .of_move h (.setClock now)
  | .begin name => .of_move h (.begin name)
  | .complete name detail => .of_move h (.complete name detail)
  | .fail name error => .of_move h (.fail name error)
  | .skip name reason => .of_move h (.skip name reason)
  | .listen _ => ⟨⟨h.tracker, h.clock⟩, rfl, rfl⟩
  | .phase name body detail failure => by
    have hbody := runAll_agree (h.move (.begin name)) body
    rw [mute, runAll_singleton, movesAll_singleton]
    exact .phase h hbody

theorem runAll_agree {p q : Progress} (h : p.Alike q) : ∀ steps : List Step,
    Agree p q (runAll p steps) (runAll q (muteAll steps)) (movesAll p steps) (movesAll q (muteAll steps))
  | [] => ⟨h, rfl, rfl⟩
  | step :: rest => by
    have hfirst := run_agree h step
    have hrest := runAll_agree hfirst.alike rest
    rw [muteAll, runAll_append, movesAll_append, runAll, movesAll, ← hfirst.failure]
    cases hf : (run p step).failure with
    | some error => exact ⟨hfirst.alike, rfl, by simpa only [List.append_nil] using hfirst.shown⟩
    | none =>
      refine ⟨hrest.alike, hrest.failure, ?_⟩
      rw [shownAll_append, shownAll_append, ← run_eq_moveAll, ← runAll_eq_moveAll, hfirst.shown, hrest.shown]

end

/-- A run leaves the records, the clock and the failure that it leaves when nobody listens. Each listener is
told of what the moves of the run show, in their order, whoever else listens and fails at it: one record for
each move that begins, skips or ends a known phase. A phase that is not known is completed or failed without a
trace. -/
theorem listeners_only_observe (hp : p.Reachable) (steps : List Step) :
    let silent : Progress := { p with listeners := [] }
    let result := runAll p steps
    let moves := movesAll p steps
    result.progress.tracker = (runAll silent (muteAll steps)).progress.tracker ∧
    result.progress.clock = (runAll silent (muteAll steps)).progress.clock ∧
    result.failure = (runAll silent (muteAll steps)).failure ∧
    result.progress = p.moveAll moves ∧
    (∀ position < p.listeners.length, result.progress.heardBy position = p.heardBy position ++ p.shownAll moves) ∧
    p.shownAll moves = silent.shownAll (movesAll silent (muteAll steps)) ∧
    ∀ before m after, moves = before ++ m :: after →
      let q := p.moveAll before
      ((q.shown? m).isSome ↔ m.Known q) ∧ (m.name?.isSome → ¬m.Known q → q.move m = q) := by
  intro silent result moves
  obtain ⟨⟨ht, hc⟩, hf, hs⟩ := runAll_agree (p := p) (q := silent) ⟨rfl, rfl⟩ steps
  have hresult : result.progress = p.moveAll moves := runAll_eq_moveAll p steps
  refine ⟨ht, hc, hf, hresult, fun position hl => ?_, hs, fun before m after _ => ?_⟩
  · rw [hresult]
    exact heardBy_moveAll hp.tracks hl moves
  · have hq := (hp.moveAll before).tracks
    exact ⟨shown?_isSome hq m, move_of_not_known hq⟩

theorem listeners_only_observe_broken :
    let p := Progress.start ⟨.whole 1, .whole 1⟩ [.broken, .observe]
    let steps := [Step.phase ['a'] [.skip ['b'] [], .complete ['c'] []] none (some ['e'])]
    p.Reachable ∧ (runAll p steps).failure = some ['e'] ∧
      (runAll p steps).failure = (runAll { p with listeners := [] } (muteAll steps)).failure ∧
      (runAll p steps).progress.heardBy 0 = (runAll p steps).progress.heardBy 1 ∧
      ((runAll p steps).progress.heardBy 1).map (·.status) = [.running, .skipped, .failed] := by
  intro p steps
  have hp : p.Reachable := .start _ _
  obtain ⟨-, -, hf, -, hheard, -⟩ := listeners_only_observe hp steps
  have hbroken := hheard 0 (by decide)
  have hobserve := hheard 1 (by decide)
  refine ⟨hp, by decide, hf, hbroken.trans hobserve.symm, ?_⟩
  rw [hobserve]
  decide

end Step

end PackageInstaller
