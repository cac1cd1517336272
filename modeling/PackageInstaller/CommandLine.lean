import PackageInstaller.Catalog
import PackageInstaller.CommandLine.Arguments
import PackageInstaller.CommandLine.Summary
import PackageInstaller.Install
import PackageInstaller.Settings

/-!
The command line. A wrong command line ends with status 2, a failure that is reported to the user
with status 1, and so does a crash, whose cause is then given.
-/

namespace PackageInstaller.CommandLine

inductive Crash where
  | settings (e : SettingsError)
  | lookup (e : Catalog.LookupFailure)
  | failure (e : Failure)

/-- How a run ended, and the host then. -/
structure Ended where
  status : Nat
  crash : Option Crash
  host : Host

structure Outcome where
  ended : Ended
  loggingLevels : List (Option Text)
  traffic : Catalog.Traffic

def given (value : Option Text) : Option Text := value.filter fun t => !t.isEmpty

/-- The URL and the version given win over those of the catalog, which is not asked when it could
contribute nothing. -/
def lookUp (i : Invocation) (replies : List Catalog.Reply) :
    Catalog.Traffic × Except Catalog.LookupFailure Reference :=
  match given i.url, given i.version with
  | some url, some version => (⟨[], [], replies⟩, .ok ⟨url, version⟩)
  | url, version =>
    let found := Catalog.resolve i.name replies
    (found.traffic, found.outcome.map fun r => ⟨url.getD r.url, version.getD r.version⟩)

def projectOf (settings : Settings) (i : Invocation) : Project where
  manifest := settings.manifestPath
  lockfile := settings.lockfilePath
  toolchain := ⟨settings.projectFolder, settings.executable, some settings.toolchainTimeout⟩
  select := if i.targets.isEmpty then Selection.interactive else Selection.fixed i.targets
  build := i.build

def printed (h : Host) (stream : Stream) (line : Text) : Host :=
  { h with toProgress := h.toProgress.printLine stream line }

def errorLine (message : String) : Text := "Error: ".toList ++ message.toList

def endWithError (h : Host) (message : String) : Ended :=
  ⟨1, none, printed h .errors (errorLine message)⟩

def endWithFailure (h : Host) (e : Failure) : Ended :=
  match e with
  | .wiring e =>
    let told := printed h .errors (errorLine e.message)
    if e.wired.isEmpty then ⟨1, none, told⟩
    else
      let wired := Text.join [',', ' '] e.wired
      ⟨1, none, printed told .errors ("Targets already updated: ".toList ++ wired)⟩
  | .aborted => ⟨1, none, printed h .errors "Aborted!".toList⟩
  | e => if e.isReported then endWithError h e.message else ⟨1, some (.failure e), h⟩

def installedLine (count : Nat) : Text :=
  "📦  ".toList ++ Number.decimalDigits count ++ " packages installed".toList

def endWithSuccess (h : Host) (verbose : Bool) (installed : Installed) : Ended :=
  let told := printed h .output (installedLine installed.count)
  ⟨0, none, if verbose then { told with toProgress := printSummary told.toProgress } else told⟩

def endLookup (h : Host) : Catalog.LookupFailure → Ended
  | .catalog e => endWithError h e.message
  | e => ⟨1, some (.lookup e), h⟩

def runInstall (h : Host) (verbose : Bool) (settings : Settings) (i : Invocation)
    (reference : Reference) : Ended :=
  match (projectOf settings i).install reference h with
  | (.ok installed, h) => endWithSuccess h verbose installed
  | (.error e, h) => endWithFailure h e

/-- The folder to work in has to be there. -/
def folder? (h : Host) (current : Path) (chosen : Option Text) : Except Failure (Option Path) :=
  match chosen with
  | none => .ok (some current)
  | some t =>
    let path := Path.ofText t
    if !path.isUsable then .error .invalidPath
    else if !t.isEmpty && h.disk.at? h.here path = some .folder then .ok (some path)
    else .ok none

def settingsFor (env : Environment) (folder : Path) (i : Invocation) : Except SettingsError Settings :=
  (Settings.ofEnvironment env folder).map fun settings =>
    match i.executable with
    | some executable => settings.override (.executable executable)
    | none => settings

/-- Runs an invocation in a folder that is there. -/
def runIn (h : Host) (env : Environment) (replies : List Catalog.Reply) (verbose : Bool)
    (folder : Path) (i : Invocation) : Ended × Catalog.Traffic :=
  match settingsFor env folder i with
  | .error e => (⟨1, some (.settings e), h⟩, ⟨[], [], replies⟩)
  | .ok settings =>
    match lookUp i replies with
    | (traffic, .error e) => (endLookup h e, traffic)
    | (traffic, .ok reference) => (runInstall h verbose settings i reference, traffic)

/-- The files that an invocation reads and writes. -/
def filesOf (env : Environment) (current : Path) (i : Invocation) : List Path :=
  let folder := current.join ((i.projectFolder.map Path.ofText).getD current)
  match settingsFor env folder i with
  | .ok settings => [settings.manifestPath, settings.lockfilePath]
  | .error _ => []

/-- The level of logging that a run asks for. -/
def loggingLevel (verbose : Bool) : Option Text := if verbose then some "DEBUG".toList else none

/-- Runs a command line on a host, in the current folder. -/
def run (words : List Text) (env : Environment) (current : Path) (h : Host)
    (replies : List Catalog.Reply) : Outcome :=
  let wrong : Ended := ⟨2, none, h⟩
  match readMain? words with
  | none => ⟨wrong, [], ⟨[], [], replies⟩⟩
  | some (verbose, rest) =>
    let levels := [loggingLevel verbose]
    match readInstall? rest with
    | none => ⟨wrong, levels, ⟨[], [], replies⟩⟩
    | some i =>
      match folder? h current i.projectFolder with
      | .error failure => ⟨⟨1, some (.failure failure), h⟩, levels, ⟨[], [], replies⟩⟩
      | .ok none => ⟨wrong, levels, ⟨[], [], replies⟩⟩
      | .ok (some folder) =>
        let (ended, traffic) := runIn h env replies verbose folder i
        ⟨ended, levels, traffic⟩

end PackageInstaller.CommandLine
