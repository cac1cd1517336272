import PackageInstaller.Log
import PackageInstaller.Settings
import PackageInstaller.Text.Lowercase

/-!
Which log events are shown, and in which format. A level is named in the environment or, which wins,
by the caller; two loggers of the network layer keep a level of their own. As JSON every event takes
one line; for the console the line ends in its name are kept.
-/

namespace PackageInstaller

structure Logging where
  level : Nat
  asJson : Bool
  deriving DecidableEq, Repr

namespace Logging

def levelNames : List (Text × Nat) :=
  [("CRITICAL".toList, 50), ("FATAL".toList, 50), ("ERROR".toList, 40), ("WARNING".toList, 30),
    ("WARN".toList, 30), ("INFO".toList, 20), ("DEBUG".toList, 10), ("NOTSET".toList, 0)]

/-- The upper case of a character where that is an ASCII letter. -/
def upperChar (c : Char) : Char :=
  if c = 'ı' then 'I' else if c = 'ſ' then 'S' else c.toUpper

def level? (name : Text) : Option Nat := levelNames.lookup (name.map upperChar)

def defaultLevelName : Text := "WARNING".toList

/-- The name of the level to use; an empty one from the caller counts as none. -/
def levelName (env : Environment) (chosen : Option Text) : Text :=
  match chosen.filter fun name => !name.isEmpty with
  | some name => name
  | none => (env.lookup "SPMKIT_LOG_LEVEL".toList).getD defaultLevelName

/-- The logging that the environment and the caller ask for, if the level they name exists. -/
def configure? (env : Environment) (chosen : Option Text) : Option Logging := do
  let level ← level? (levelName env chosen)
  let format := (env.lookup "SPMKIT_LOG_FORMAT".toList).getD "console".toList
  return ⟨level, Text.lower format == "json".toList⟩

def networkLevel : Nat := 30

def networkLoggers : List Text := ["httpx".toList, "httpcore".toList]

/-- A logger's name begins with the name of the logger that it belongs to, up to a point. -/
def isNetwork (logger : Text) : Bool := networkLoggers.elem (logger.takeWhile (· ≠ '.'))

def threshold (l : Logging) (logger : Text) : Nat :=
  if isNetwork logger then networkLevel else l.level

def severity : Level → Nat
  | .debug => 10
  | .info => 20
  | .warning => 30
  | .error => 40
  | .critical => 50

/-- The logger without a name is the root of all others. -/
def shownName (logger : Text) : Text := if logger.isEmpty then "root".toList else logger

/-- What a line says of its own accord, or consumes, and no field of an event can. -/
def reservedFields : List Text :=
  ["timestamp".toList, "level".toList, "logger".toList, "exc_info".toList, "stack_info".toList]

/-- The number of lines that events with these names take. -/
def lineCount (l : Logging) (names : List Text) : Nat :=
  if l.asJson then names.length else names.length + names.flatten.count '\n'

def shows (l : Logging) (logger : Text) (level : Level) : Bool := l.threshold logger ≤ severity level

end Logging

end PackageInstaller
