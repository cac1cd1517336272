import PackageInstaller.Progress.Step
import PackageInstaller.Proofs.Notices

/-! What is done to a progress, one thing after the other. A phase is what its begin, its body and its end do. -/

namespace PackageInstaller

namespace Progress

inductive Move where
  | begin (name : Text)
  | complete (name detail : Text)
  | fail (name error : Text)
  | skip (name reason : Text)
  | note (position : Nat) (detail : Text)
  | listen (listener : Listener)
  | setClock (now : Number)

def Move.name? : Move → Option Text
  | .begin name => some name
  | .complete name _ => some name
  | .fail name _ => some name
  | .skip name _ => some name
  | .note _ _ => none
  | .listen _ => none
  | .setClock _ => none

def move (p : Progress) : Move → Progress
  | .begin name => p.begin name
  | .complete name detail => p.complete name detail
  | .fail name error => p.fail name error
  | .skip name reason => p.skip name reason
  | .note position detail => p.setDetail position detail
  | .listen listener => { p with listeners := p.listeners ++ [listener] }
  | .setClock now => { p with clock := { p.clock with now := now } }

def moveAll (p : Progress) (moves : List Move) : Progress := moves.foldl move p

/-- A state of a tracker that something can lead to. -/
inductive Reachable : Progress → Prop
  | start (clock : Clock) (listeners : List Listener) : Reachable (Progress.start clock listeners)
  | move {p : Progress} (h : Reachable p) (m : Move) : Reachable (p.move m)

/-- What beginning, completing, failing or skipping a phase of a name can come to. -/
inductive Follows (p : Progress) (name : Text) : Progress → Prop
  | idle (h : ∀ i, p.tracker.live? name = some i → p.tracker.records[i]? = none) : Follows p name p
  | added (clock : Clock) (r : PhaseRecord) (h : r.name = name) :
    Follows p name ({ p with clock := clock, tracker := p.tracker.add r }.notify r)
  | changed (clock : Clock) {i : Nat} {r : PhaseRecord} (r' : PhaseRecord)
    (hlive : p.tracker.live? name = some i) (hr : p.tracker.records[i]? = some r) (hname : r'.name = r.name)
    (hstarted : r'.started = r.started) :
    Follows p name ({ p with clock := clock, tracker := p.tracker.change i fun _ => r' }.notify r')

variable {p q : Progress} {name : Text} {moves : List Move}

lemma settle_follows {f : PhaseRecord → Number → PhaseRecord} (hname : ∀ r now, (f r now).name = r.name)
    (hstarted : ∀ r now, (f r now).started = r.started) : p.Follows name (p.settle name f) := by
  rcases p.settle_cases name f with ⟨heq, h⟩ | ⟨i, r, hl, hr, heq⟩
  · rw [heq]
    exact .idle h
  · rw [heq]
    exact .changed _ _ hl hr (hname _ _) (hstarted _ _)

lemma complete_follows (detail : Text) : p.Follows name (p.complete name detail) :=
  settle_follows (fun _ _ => rfl) fun _ _ => rfl

lemma fail_follows (error : Text) : p.Follows name (p.fail name error) :=
  settle_follows (fun _ _ => rfl) fun _ _ => rfl

lemma begin_follows : p.Follows name (p.begin name) := .added _ _ rfl

lemma skip_follows (reason : Text) : p.Follows name (p.skip name reason) := .added _ _ rfl

lemma move_follows {m : Move} (h : m.name? = some name) : p.Follows name (p.move m) := by
  cases m with
  | begin n =>
    obtain rfl := Option.some.inj h
    exact begin_follows
  | complete n detail =>
    obtain rfl := Option.some.inj h
    exact complete_follows detail
  | fail n error =>
    obtain rfl := Option.some.inj h
    exact fail_follows error
  | skip n reason =>
    obtain rfl := Option.some.inj h
    exact skip_follows reason
  | note position detail => simp [Move.name?] at h
  | listen listener => simp [Move.name?] at h
  | setClock now => simp [Move.name?] at h

lemma moveAll_append (p : Progress) (before after : List Move) :
    p.moveAll (before ++ after) = (p.moveAll before).moveAll after := List.foldl_append

lemma Reachable.moveAll (h : p.Reachable) (moves : List Move) : (p.moveAll moves).Reachable := by
  induction moves generalizing p with
  | nil => exact h
  | cons m moves ih => exact ih (h.move m)

end Progress

namespace Step

open Progress

/-- The progress when the body of a phase is over, before the phase is left, and how the body ended. -/
def within (p : Progress) (name : Text) (body : List Step) (detail failure : Option Text) : Result :=
  let inner := runAll (p.begin name) body
  match inner.failure with
  | some _ => inner
  | none => ⟨leaveDetail inner.progress p.tracker.records.length detail, failure⟩

/-- How a phase is left whose record is at a position. -/
def leaving (name : Text) (position : Nat) (b : Result) : Move :=
  match b.failure with
  | none => .complete name (b.progress.tracker.detailAt position)
  | some error => .fail name error

/-- The detail that a body leaves when it ends without a failure. -/
def noting (position : Nat) (detail : Option Text) (inner : Result) : List Move :=
  match inner.failure with
  | some _ => []
  | none => (detail.map (Move.note position)).toList

mutual

/-- All that a step does, in order: a phase also what its body does. -/
def moves (p : Progress) : Step → List Move
  | .setClock now => [.setClock now]
  | .begin name => [.begin name]
  | .complete name detail => [.complete name detail]
  | .fail name error => [.fail name error]
  | .skip name reason => [.skip name reason]
  | .listen listener => [.listen listener]
  | .phase name body detail failure =>
    let position := p.tracker.records.length
    .begin name :: (movesAll (p.begin name) body ++ noting position detail (runAll (p.begin name) body) ++
      [leaving name position (within p name body detail failure)])

def movesAll (p : Progress) : List Step → List Move
  | [] => []
  | step :: rest =>
    let first := run p step
    moves p step ++ match first.failure with
      | some _ => []
      | none => movesAll first.progress rest

end

variable {p : Progress} {name : Text} {position : Nat} {body : List Step} {detail failure : Option Text}

lemma run_phase : run p (.phase name body detail failure) =
    ⟨(within p name body detail failure).progress.leave name p.tracker.records.length
      (within p name body detail failure).failure, (within p name body detail failure).failure⟩ := by
  rw [run, within]
  simp only [Progress.enter]
  cases h : (runAll (p.begin name) body).failure with
  | none => rfl
  | some error => rw [h]

lemma move_leaving (b : Result) :
    b.progress.move (leaving name position b) = b.progress.leave name position b.failure := by
  rw [leaving]
  cases b.failure <;> rfl

lemma moveAll_noting : (runAll (p.begin name) body).progress.moveAll
    (noting p.tracker.records.length detail (runAll (p.begin name) body)) =
      (within p name body detail failure).progress := by
  rw [noting, within]
  cases (runAll (p.begin name) body).failure with
  | some error => rfl
  | none => cases detail <;> rfl

mutual

theorem run_eq_moveAll (p : Progress) : ∀ step : Step, (run p step).progress = p.moveAll (moves p step)
  | .setClock _ => rfl
  | .begin _ => rfl
  | .complete _ _ => rfl
  | .fail _ _ => rfl
  | .skip _ _ => rfl
  | .listen _ => rfl
  | .phase name body detail failure => by
    have hbody := runAll_eq_moveAll (p.begin name) body
    rw [run_phase, moves]
    simp only
    rw [← move_leaving, ← moveAll_noting, hbody]
    change _ = (p.begin name).moveAll _
    rw [moveAll_append, moveAll_append]
    rfl

theorem runAll_eq_moveAll (p : Progress) : ∀ steps : List Step,
    (runAll p steps).progress = p.moveAll (movesAll p steps)
  | [] => rfl
  | step :: rest => by
    have hfirst := run_eq_moveAll p step
    have hrest := runAll_eq_moveAll (run p step).progress rest
    rw [runAll, movesAll]
    cases hf : (run p step).failure with
    | some error => simpa only [List.append_nil] using hfirst
    | none =>
      rw [moveAll_append, ← hfirst]
      exact hrest

end

end Step

end PackageInstaller
