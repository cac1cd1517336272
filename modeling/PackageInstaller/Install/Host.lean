import PackageInstaller.Failure
import PackageInstaller.Progress

/-!
The machine that an installation runs on: its disk, what its toolchain will do when it is asked, and
what the user types and sees. Actions change it, and what they changed stays when they fail.
-/

namespace PackageInstaller

/-- What a command leaves at a place. -/
inductive Change where
  | put (place : Place) (entry : Entry)
  | remove (place : Place)
  deriving DecidableEq

namespace Disk

/-- What was there before makes way. -/
def apply (d : Disk) : Change → Disk
  | .put place entry => ((d.erase place).ensureFoldersAbove place).put place entry
  | .remove place => d.erase place

end Disk

/-- What a command does: the changes it makes on the disk, and then its end. -/
structure Run where
  changes : List Change
  ending : Ending

/-- The scans of the manifest. Each nests calls as deep as the literals in the text are nested. -/
inductive Scanning where
  | locating
  | declaring
  | wiring
  deriving DecidableEq, Repr

/-- How removing a folder breaks off: what is gone by then, and what the system says. -/
structure Removal where
  gone : List Place
  message : Text

/-- A command as it was started, and the disk then. -/
structure Call where
  command : List Text
  folder : Path
  timeout : Option Number
  disk : Disk

structure Host extends Progress where
  disk : Disk
  here : Place
  swift : Subcommand → Run
  calls : List Call
  replies : List Text
  /-- What the machine says where a scan nests more calls than it allows. -/
  overflow : Scanning → Option Text := fun _ => none
  /-- How the removal of what earlier builds left breaks off, if it does. -/
  removal : Option Removal := none

def Action (α : Type) : Type := Host → Except Failure α × Host

namespace Action

variable {α β : Type}

def result (a : α) : Action α := fun h => (.ok a, h)

def fail (e : Failure) : Action α := fun h => (.error e, h)

def andThen (x : Action α) (f : α → Action β) : Action β := fun h =>
  match x h with
  | (.ok a, h') => f a h'
  | (.error e, h') => (.error e, h')

instance : Monad Action where
  pure := result
  bind := andThen

def modify (f : Host → Host) : Action Unit := fun h => (.ok (), f h)

def inspect (f : Host → α) : Action α := fun h => (.ok (f h), h)

def onProgress (f : Progress → Progress) : Action Unit :=
  modify fun h => { h with toProgress := f h.toProgress }

/-- Fails where the machine cannot follow a scan that is begun. -/
def descend (scanning : Scanning) (begun : Bool) : Action Unit := fun h =>
  match if begun then h.overflow scanning else none with
  | none => (.ok (), h)
  | some message => (.error (.refused message), h)

def logged (level : Level) (name : String) (fields : List (String × Field)) : Action Unit :=
  onProgress (·.tell [⟨level, name, fields⟩])

/-- An attempt made part of an action: its log goes to the host's log. -/
def ofAttempt {ε : Type} (f : ε → Failure) (x : Attempt ε α) : Action α := fun h =>
  (x.outcome.mapError f, { h with toProgress := h.toProgress.tell x.log })

/-- Runs a body as a phase; the body is given the position of the phase's record. -/
def phase (name : Text) (body : Nat → Action α) : Action α := fun h =>
  let (position, entered) := h.toProgress.enter name
  let (outcome, after) := body position { h with toProgress := entered }
  let error := match outcome with
    | .ok _ => none
    | .error e => some e.message.toList
  (outcome, { after with toProgress := after.toProgress.leave name position error })

@[simp] theorem pure_run (a : α) (h : Host) : (pure a : Action α) h = (.ok a, h) := rfl

@[simp] theorem fail_run (e : Failure) (h : Host) : (fail e : Action α) h = (.error e, h) := rfl

@[simp] theorem modify_run (f : Host → Host) (h : Host) : modify f h = (.ok (), f h) := rfl

theorem bind_run (x : Action α) (f : α → Action β) (h : Host) :
    (x >>= f) h = match x h with
      | (.ok a, h') => f a h'
      | (.error e, h') => (.error e, h') := rfl

end Action

end PackageInstaller
