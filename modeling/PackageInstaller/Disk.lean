import PackageInstaller.Encoding.Utf8
import PackageInstaller.Path
import PackageInstaller.Text.Quoted

/-!
Files and folders. Everything on the disk has a place, the list of names that leads to it from the
root. Names and paths are limited in the bytes that they take.
-/

namespace PackageInstaller

abbrev Place := List Text

inductive Entry where
  | file (bytes : Bytes)
  | folder
  deriving DecidableEq

structure Disk where
  entries : List (Place × Entry)
  deriving DecidableEq

inductive FileFault where
  | missing
  | notFolder
  | isFolder
  | nameTooLong
  deriving DecidableEq, Repr

def FileFault.code : FileFault → Nat
  | .missing => 2
  | .notFolder => 20
  | .isFolder => 21
  | .nameTooLong => 36

def FileFault.describe : FileFault → String
  | .missing => "No such file or directory"
  | .notFolder => "Not a directory"
  | .isFolder => "Is a directory"
  | .nameTooLong => "File name too long"

def FileFault.message (fault : FileFault) (subject : Text) : String :=
  s!"[Errno {fault.code}] {fault.describe}: {String.ofList subject}"

/-- What went wrong with the file at a path. -/
structure FileError where
  fault : FileFault
  path : Path
  deriving DecidableEq, Repr

def FileError.message (e : FileError) : String := e.fault.message (Text.quoted e.path.text)

namespace Disk

def get? (d : Disk) (place : Place) : Option Entry := d.entries.lookup place

def put (d : Disk) (place : Place) (entry : Entry) : Disk :=
  ⟨(place, entry) :: d.entries.filter fun e => e.1 ≠ place⟩

/-- Removes what is at a place and everything below it. -/
def erase (d : Disk) (place : Place) : Disk := ⟨d.entries.filter fun e => !place.isPrefixOf e.1⟩

def maxNameBytes : Nat := 255

def maxPathBytes : Nat := 4095

/-- The place that the names lead to; each but the last has to be a folder. -/
def walk (d : Disk) (place : Place) : List Text → Except FileFault Place
  | [] => .ok place
  | name :: rest =>
    match d.get? place with
    | none => .error .missing
    | some (.file _) => .error .notFolder
    | some .folder =>
      if maxNameBytes < (Encoding.encodeUtf8 name).length then .error .nameTooLong
      else d.walk (if name = ['.', '.'] then place.dropLast else place ++ [name]) rest

def locate (d : Disk) (here : Place) (path : Path) : Except FileFault Place :=
  if maxPathBytes < (Encoding.encodeUtf8 path.text).length then .error .nameTooLong
  else d.walk (if path.root.isEmpty then here else []) path.names

/-- What is at a path, if anything is. -/
def at? (d : Disk) (here : Place) (path : Path) : Option Entry :=
  match d.locate here path with
  | .ok place => d.get? place
  | .error _ => none

def read (d : Disk) (here : Place) (path : Path) : Except FileFault Bytes := do
  let place ← d.locate here path
  match d.get? place with
  | none => .error .missing
  | some .folder => .error .isFolder
  | some (.file bytes) => .ok bytes

def write (d : Disk) (here : Place) (path : Path) (bytes : Bytes) : Except FileFault Disk := do
  let place ← d.locate here path
  match d.get? place with
  | some .folder => .error .isFolder
  | _ => .ok (d.put place (.file bytes))

def ensureFolder (d : Disk) (place : Place) : Disk :=
  if (d.get? place).isSome then d else d.put place .folder

/-- Makes every folder above a place that is not there yet. -/
def ensureFoldersAbove (d : Disk) (place : Place) : Disk :=
  ((List.range place.length).map place.take).foldl ensureFolder d

@[simp] theorem get?_put_self (d : Disk) (place : Place) (entry : Entry) :
    (d.put place entry).get? place = some entry := by
  simp [get?, put]

end Disk

end PackageInstaller
