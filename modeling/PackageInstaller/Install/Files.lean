import PackageInstaller.Encoding.Utf8
import PackageInstaller.Install.Host
import PackageInstaller.Text

/-!
The two files of a project: the manifest, which is read and written, and the lockfile, which the
toolchain writes and which is only read.
-/

namespace PackageInstaller

/-- The text of a file, each of its line ends read as a line feed. -/
def textOfBytes (bytes : Bytes) : Except DecodingError Text :=
  (Encoding.decodeUtf8 bytes).map Text.unifyLineEnds

namespace ManifestFile

def textOf (d : Disk) (here : Place) (path : Path) : Except ProjectError Text :=
  match d.read here path with
  | .error .missing => .error .noManifest
  | .error fault => .error (.unreadable path (.file ⟨fault, path⟩))
  | .ok bytes => (textOfBytes bytes).mapError fun e => .unreadable path (.undecodable e)

def read (path : Path) : Action Text := fun h =>
  if path.isUsable then ((textOf h.disk h.here path).mapError .project, h)
  else (.error .invalidPath, h)

def writtenEvent (path : Path) (t : Text) : Event :=
  ⟨.debug, "project.manifest_written", [("path", .text path.text), ("size", .count t.length)]⟩

/-- Writes a text in which the given characters stand for halves of surrogate pairs. The file is opened
before the text is encoded: where that fails, nothing is left in it. -/
def writeWith (halves : List Char) (path : Path) (t : Text) : Action Unit := fun h =>
  if path.isUsable then
    let obstacle := Encoding.unencodable? halves t
    match h.disk.write h.here path (if obstacle.isSome then [] else Encoding.encodeUtf8 t) with
    | .error fault => (.error (.project (.unwritable path (.file ⟨fault, path⟩))), h)
    | .ok disk =>
      match obstacle with
      | none =>
        (.ok (), { h with toProgress := h.toProgress.tell [writtenEvent path t], disk := disk })
      | some e => (.error (.project (.unwritable path (.unencodable e))), { h with disk := disk })
  else (.error .invalidPath, h)

def write (path : Path) (t : Text) : Action Unit := writeWith [] path t

end ManifestFile

namespace Lockfile

def pinsOfText (t : Text) (half : Nat → Char := Encoding.ofHalf) : Except Failure (List Pin) :=
  match Json.readFile t half with
  | .error e => .error (if e.flaw.isSyntax then .lockfile (.malformed e) else .beyondLimits e)
  | .ok json => (pinsOf json).mapError fun fault => .lockfile (.layout fault)

def missingEvent (path : Path) : Event :=
  ⟨.debug, "lockfile.missing", [("path", .text path.text)]⟩

/-- The pins of the lockfile at a path. With `missingOk`, one that is not there has none. Texts in it
may hold halves of surrogate pairs; `half` says what stands for them. -/
def pinsAt (d : Disk) (here : Place) (path : Path) (missingOk : Bool)
    (half : Nat → Char := Encoding.ofHalf) : Attempt Failure (List Pin) :=
  if !path.isUsable then Attempt.fail .invalidPath
  else match d.read here path with
  | .error .missing =>
    if missingOk then ⟨[missingEvent path], .ok []⟩ else Attempt.fail (.project .noLockfile)
  | .error fault => Attempt.fail (.project (.unreadable path (.file ⟨fault, path⟩)))
  | .ok bytes =>
    match textOfBytes bytes with
    | .error e => Attempt.fail (.undecodable e)
    | .ok t => Attempt.ofExcept (pinsOfText t half)

def pinFor? (pins : List Pin) (url : Text) : Option Pin :=
  pins.find? fun pin => pin.key = Repository.canonicalUrl url

def resolvedEvent (url : Text) (pin : Pin) : Event :=
  ⟨.debug, "lockfile.resolved", [("url", .text url), ("package", .text pin.name)]⟩

/-- The name that the package from a URL is pinned under. -/
def nameAt (d : Disk) (here : Place) (path : Path) (url : Text)
    (half : Nat → Char := Encoding.ofHalf) : Attempt Failure Text := do
  let pins ← pinsAt d here path false half
  match pinFor? pins url with
  | none => Attempt.fail (.lockfile (.notResolved url))
  | some pin => ⟨[resolvedEvent url pin], .ok pin.name⟩

/-- The characters of that name that stand for halves of surrogate pairs: those in whose place another
one is read when another one stands for them. -/
def halvesAt (d : Disk) (here : Place) (path : Path) (url : Text) : List Char :=
  match (nameAt d here path url).outcome,
    (nameAt d here path url fun _ => Encoding.replacement).outcome with
  | .ok name, .ok other => Encoding.halvesIn name other
  | _, _ => []

def readPins (path : Path) (missingOk : Bool) : Action (List Pin) := fun h =>
  Action.ofAttempt id (pinsAt h.disk h.here path missingOk) h

def packageNameFor (path : Path) (url : Text) : Action Text := fun h =>
  Action.ofAttempt id (nameAt h.disk h.here path url) h

end Lockfile

end PackageInstaller
