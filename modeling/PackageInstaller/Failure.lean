import PackageInstaller.Disk
import PackageInstaller.Json.Reader
import PackageInstaller.Lockfile.Pin
import PackageInstaller.Manifest.Edit
import PackageInstaller.Toolchain

/-!
Everything that can end an installation. A failure of a known kind is reported to the user in its
own words; the others go out as they come.
-/

namespace PackageInstaller

inductive ReadFault where
  | file (e : FileError)
  | undecodable (e : DecodingError)
  deriving DecidableEq, Repr

def ReadFault.message : ReadFault → String
  | .file e => e.message
  | .undecodable e => e.message

inductive WriteFault where
  | file (e : FileError)
  | unencodable (e : EncodingError)
  deriving DecidableEq, Repr

inductive ProjectError where
  | noManifest
  | noLockfile
  | unreadable (path : Path) (cause : ReadFault)
  | unwritable (path : Path) (cause : WriteFault)
  deriving DecidableEq, Repr

/-- A text that cannot be encoded is not looked for when the manifest is written. -/
def ProjectError.isReported : ProjectError → Bool
  | .unwritable _ (.unencodable _) => false
  | _ => true

def ProjectError.message : ProjectError → String
  | .noManifest => "Bad path to package manifest. Make sure you are in the project root."
  | .noLockfile => "Bad path to package data. Make sure you are in the project root."
  | .unreadable path cause => s!"Unable to read {String.ofList path.text}: {cause.message}"
  | .unwritable path (.file e) => s!"Unable to write {String.ofList path.text}: {e.message}"
  | .unwritable _ (.unencodable e) => e.message

inductive LockfileError where
  | malformed (cause : Json.ReadError)
  | layout (fault : Lockfile.LayoutFault)
  | notResolved (url : Text)
  deriving DecidableEq, Repr

def LockfileError.message : LockfileError → String
  | .malformed cause => s!"Unable to read Package.resolved: {cause.message}"
  | .layout fault => s!"Unable to read Package.resolved: {fault.describe}"
  | .notResolved url =>
    s!"no resolved package found for {String.ofList (Text.quoted url)} in the lockfile"

inductive Failure where
  | edit (e : Manifest.EditError)
  | wiring (e : Manifest.WiringError)
  | project (e : ProjectError)
  | lockfile (e : LockfileError)
  | toolchain (e : ToolchainError)
  | undecodable (e : DecodingError)
  | beyondLimits (e : Json.ReadError)
  | invalidPath
  | buildNotFolder (path : Path)
  | refused (message : Text)
  | aborted
  deriving DecidableEq

namespace Failure

/-- Whether the user gets a message; any other failure is a crash. -/
def isReported : Failure → Bool
  | .edit e => e.isStructural || e.isTargetNotFound || e.isDuplicate
  | .wiring _ => true
  | .project e => e.isReported
  | .lockfile _ => true
  | .toolchain _ => true
  | _ => false

/-- A path named by what it is and not by its text alone. -/
def pathSubject (path : Path) : Text := "PosixPath(".toList ++ Text.quoted path.text ++ [')']

def message : Failure → String
  | .edit e => e.message
  | .wiring e => e.message
  | .project e => e.message
  | .lockfile e => e.message
  | .toolchain e => e.message
  | .undecodable e => e.message
  | .beyondLimits e => e.message
  | .invalidPath => "embedded null byte"
  | .buildNotFolder path => FileFault.notFolder.message (pathSubject path)
  | .refused message => String.ofList message
  | .aborted => ""

end Failure

end PackageInstaller
