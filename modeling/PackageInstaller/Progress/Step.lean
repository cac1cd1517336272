import PackageInstaller.Progress

/-!
Runs of the tracker, step by step. A phase has a body of further steps, which may leave a detail on
its record and may end in a failure; the failure ends every phase around it.
-/

namespace PackageInstaller

inductive Step where
  | setClock (now : Number)
  | begin (name : Text)
  | complete (name detail : Text)
  | fail (name error : Text)
  | skip (name reason : Text)
  | listen (listener : Listener)
  | phase (name : Text) (body : List Step) (detail failure : Option Text)
  deriving Inhabited

namespace Step

/-- The progress after a run, and the failure that ended it, if one did. -/
structure Result where
  progress : Progress
  failure : Option Text

def leaveDetail (p : Progress) (position : Nat) (detail : Option Text) : Progress :=
  match detail with
  | some detail => p.setDetail position detail
  | none => p

mutual

def run (p : Progress) : Step → Result
  | .setClock now => ⟨{ p with clock := { p.clock with now := now } }, none⟩
  | .begin name => ⟨p.begin name, none⟩
  | .complete name detail => ⟨p.complete name detail, none⟩
  | .fail name error => ⟨p.fail name error, none⟩
  | .skip name reason => ⟨p.skip name reason, none⟩
  | .listen listener => ⟨{ p with listeners := p.listeners ++ [listener] }, none⟩
  | .phase name body detail failure =>
    let (position, entered) := p.enter name
    let inner := runAll entered body
    match inner.failure with
    | some error => ⟨inner.progress.leave name position (some error), some error⟩
    | none =>
      ⟨(leaveDetail inner.progress position detail).leave name position failure, failure⟩

def runAll (p : Progress) : List Step → Result
  | [] => ⟨p, none⟩
  | step :: rest =>
    let first := run p step
    match first.failure with
    | some error => ⟨first.progress, some error⟩
    | none => runAll first.progress rest

end

end Step

end PackageInstaller
