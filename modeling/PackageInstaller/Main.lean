import PackageInstaller.CommandLine

/-!
The program. It loads the files that the command line names into a disk, runs the command line on a
host with that disk, prints what the host's user got to see, and stores the files that changed. All
replies are read before the run. No process and no network is connected to the host: its toolchain
cannot be started, and requests to the catalog do not get through.
-/

namespace PackageInstaller.Main

open CommandLine

def environmentKeys : List String :=
  ["SPMKIT_CATALOG_URL", "SPMKIT_SWIFT", "SPMKIT_TOOLCHAIN_TIMEOUT", "SPMKIT_HTTP_TIMEOUT",
    "SPMKIT_MANIFEST", "SPMKIT_LOCKFILE"]

def readEnvironment : IO Environment :=
  environmentKeys.filterMapM fun key => do
    return (← IO.getEnv key).map fun value => (key.toList, value.toList)

def nativeName (path : Path) : String := String.ofList path.text

/-- Adds a file to the disk, if it can be read, with the folders above it. -/
def loadFile (disk : Disk) (path : Path) : IO Disk := do
  try
    let bytes ← IO.FS.readBinFile (nativeName path)
    return disk.apply (.put path.names (.file bytes.toList))
  catch _ => return disk

def storeFile (before after : Disk) (path : Path) : IO Unit := do
  match after.get? path.names with
  | some (.file bytes) =>
    if before.get? path.names ≠ some (.file bytes) then
      IO.FS.writeBinFile (nativeName path) ⟨bytes.toArray⟩
  | _ => return

def invocationOf (words : List Text) : Option Invocation := do
  let (_, rest) ← readMain? words
  readInstall? rest

def unconnected : Text := "not connected".toList

def replies : List Catalog.Reply :=
  List.replicate Catalog.maxAttempts (.transport .connectError unconnected)

def hostFor (disk : Disk) (current : Path) (input : Text) : Host :=
  { Progress.start ⟨.real 1, .real 0⟩ [.announce] with
    disk := disk
    here := current.names
    swift := fun _ => ⟨[], .notFound unconnected⟩
    calls := []
    replies := Text.typedLines input }

def printAll (printed : List Printed) : IO Unit :=
  printed.forM fun p =>
    match p.stream with
    | .output => IO.print (String.ofList p.text)
    | .errors => IO.eprint (String.ofList p.text)

def crashMessage : Crash → String
  | .settings e => e.message
  | .lookup (.catalog e) => e.message
  | .lookup (.exchange _ message) => String.ofList message
  | .lookup .unanswered => String.ofList unconnected
  | .lookup (.beyondLimits cause) => cause.message
  | .failure e => e.message

def usage : String :=
  "usage: [-v] install [--url URL] [--version VERSION] [-t TARGET] [--project-dir DIR] [--swift SWIFT] [--no-build] NAME"

def runProgram (words : List Text) : IO UInt32 := do
  let env ← readEnvironment
  let current := Path.ofText (← IO.currentDir).toString.toList
  let files := ((invocationOf words).map (filesOf env current)).getD []
  let empty : Disk := Disk.apply ⟨[([], .folder)]⟩ (.put current.names .folder)
  let disk ← files.foldlM loadFile empty
  let input ← (← IO.getStdin).readToEnd
  let outcome := run words env current (hostFor disk current input.toList) replies
  let ended := outcome.ended
  printAll ended.host.printed
  files.forM (storeFile disk ended.host.disk)
  if ended.status = 2 then IO.eprintln usage
  if let some crash := ended.crash then IO.eprintln (crashMessage crash)
  return ended.status.toUInt32

end PackageInstaller.Main

def main (args : List String) : IO UInt32 :=
  PackageInstaller.Main.runProgram (args.map String.toList)
