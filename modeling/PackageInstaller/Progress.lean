import PackageInstaller.Log
import PackageInstaller.Progress.Tracker
import PackageInstaller.Text

/-!
Following phases with a clock, and telling listeners. Each listener is told of a record as it is
after each change to it; one that fails to take it in leaves a line in the log and nothing else.
-/

namespace PackageInstaller

/-- A clock shows a time and has moved on by one tick when it is read again. -/
structure Clock where
  now : Number
  tick : Number

def Clock.next (c : Clock) : Clock := { c with now := c.now.add c.tick }

inductive Listener where
  | observe
  | announce
  | broken
  deriving DecidableEq, Repr

/-- A record as one listener, named by its position, was told of it. -/
structure Notice where
  position : Nat
  listener : Listener
  record : PhaseRecord

inductive Stream where
  | output
  | errors
  deriving DecidableEq, Repr

/-- A piece of what the user gets to see. -/
structure Printed where
  stream : Stream
  text : Text
  deriving DecidableEq, Repr

structure Progress where
  tracker : Tracker
  clock : Clock
  listeners : List Listener
  heard : List Notice
  printed : List Printed
  log : List Event

namespace Progress

def start (clock : Clock) (listeners : List Listener) : Progress :=
  ⟨Tracker.empty, clock, listeners, [], [], []⟩

def printLine (p : Progress) (stream : Stream) (line : Text) : Progress :=
  { p with printed := p.printed ++ [⟨stream, Text.plain line ++ ['\n']⟩] }

def tell (p : Progress) (events : List Event) : Progress := { p with log := p.log ++ events }

def phaseLabels : List (Text × Text) :=
  [("read".toList, "Reading package manifest".toList),
    ("targets".toList, "Reading Package Targets".toList),
    ("resolve".toList, "Installing Dependency".toList),
    ("wire".toList, "Adding dependency to targets".toList),
    ("build".toList, "Building project".toList)]

def labelOf (name : Text) : Text := (phaseLabels.lookup name).getD name

def announce (p : Progress) (r : PhaseRecord) : Progress :=
  let label := labelOf r.name
  match r.status with
  | .running => p.printLine .output (label ++ "...".toList)
  | .failed => p.printLine .errors ("[!] ".toList ++ label ++ " failed".toList)
  | .skipped =>
    p.printLine .output ("[-] ".toList ++ label ++ " skipped (".toList ++ r.detail ++ [')'])
  | .completed => p

def deafEvent (name : Text) : Event :=
  ⟨.debug, "progress.callback_error", [("phase", .text name), ("exc_info", .flag true)]⟩

def notifyOne (r : PhaseRecord) (p : Progress) (listener : Listener) (position : Nat) : Progress :=
  let told := { p with heard := p.heard ++ [⟨position, listener, r⟩] }
  match listener with
  | .observe => told
  | .announce => told.announce r
  | .broken => told.tell [deafEvent r.name]

def notify (p : Progress) (r : PhaseRecord) : Progress :=
  p.listeners.zipIdx.foldl (fun p (listener, position) => notifyOne r p listener position) p

def advance (p : Progress) : Progress := { p with clock := p.clock.next }

def add (p : Progress) (r : PhaseRecord) : Progress :=
  { p with tracker := p.tracker.add r }.notify r

def begin (p : Progress) (name : Text) : Progress :=
  p.advance.add (PhaseRecord.begin name p.clock.now)

def skip (p : Progress) (name reason : Text) : Progress := p.add (PhaseRecord.skip name reason)

/-- Ends the live record of a name, at the time that the clock shows; a name without one is let
pass, and the clock is not read then. -/
def settle (p : Progress) (name : Text) (f : PhaseRecord → Number → PhaseRecord) : Progress :=
  match p.tracker.live? name with
  | none => p
  | some position =>
    match p.tracker.records[position]? with
    | none => p
    | some r =>
      let ended := f r p.clock.now
      { p.advance with tracker := p.tracker.change position fun _ => ended }.notify ended

def complete (p : Progress) (name detail : Text) : Progress :=
  p.settle name fun r now => r.complete now detail

def fail (p : Progress) (name error : Text) : Progress :=
  p.settle name fun r now => r.fail now error

/-- Begins a phase whose body is still to run; the position is that of its record. -/
def enter (p : Progress) (name : Text) : Nat × Progress := (p.tracker.records.length, p.begin name)

/-- Ends a phase as its body ended: with the detail that the body left on its record, or failed. -/
def leave (p : Progress) (name : Text) (position : Nat) : Option Text → Progress
  | none => p.complete name (p.tracker.detailAt position)
  | some error => p.fail name error

def setDetail (p : Progress) (position : Nat) (detail : Text) : Progress :=
  { p with tracker := p.tracker.setDetail position detail }

end Progress

end PackageInstaller
