import PackageInstaller.Number

/-!
The record of one phase: when it began and ended, and how.
-/

namespace PackageInstaller

inductive PhaseStatus where
  | running
  | completed
  | failed
  | skipped
  deriving DecidableEq, Repr

structure PhaseRecord where
  name : Text
  status : PhaseStatus
  started : Option Number
  ended : Option Number
  detail : Text
  error : Option Text

namespace PhaseRecord

def begin (name : Text) (now : Number) : PhaseRecord := ⟨name, .running, some now, none, [], none⟩

def skip (name reason : Text) : PhaseRecord := ⟨name, .skipped, none, none, reason, none⟩

def complete (r : PhaseRecord) (now : Number) (detail : Text) : PhaseRecord :=
  { r with status := .completed, ended := some now, detail := detail }

def fail (r : PhaseRecord) (now : Number) (error : Text) : PhaseRecord :=
  { r with status := .failed, ended := some now, error := some error }

/-- A reading of zero does not count as one. -/
def counted (reading : Option Number) : Option Number := reading.filter fun n => !n.isZero

def duration? (r : PhaseRecord) : Option Number := do
  let started ← counted r.started
  let ended ← counted r.ended
  return (ended.sub started).toCents

@[simp] theorem begin_name (name : Text) (now : Number) : (begin name now).name = name := rfl

@[simp] theorem skip_name (name reason : Text) : (skip name reason).name = name := rfl

@[simp] theorem complete_name (r : PhaseRecord) (now : Number) (detail : Text) :
    (r.complete now detail).name = r.name := rfl

@[simp] theorem fail_name (r : PhaseRecord) (now : Number) (error : Text) :
    (r.fail now error).name = r.name := rfl

end PhaseRecord

end PackageInstaller
