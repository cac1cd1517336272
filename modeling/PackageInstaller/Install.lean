import PackageInstaller.Install.Commands
import PackageInstaller.Install.Files
import PackageInstaller.Install.Selector

/-!
Installing a package: it is declared in the manifest, the toolchain resolves it, and the name under
which it was pinned is wired into the selected targets. A failure leaves the manifest as the last
step that wrote it did.
-/

namespace PackageInstaller

structure Project where
  manifest : Path
  lockfile : Path
  toolchain : Toolchain
  select : Selector
  build : Bool

structure Installed where
  reference : Reference
  identifier : Text
  targets : List Text
  count : Nat
  manifest : Text

namespace Project

open Manifest

def readPhase : Text := ['r', 'e', 'a', 'd']

def targetsPhase : Text := ['t', 'a', 'r', 'g', 'e', 't', 's']

def resolvePhase : Text := ['r', 'e', 's', 'o', 'l', 'v', 'e']

def wirePhase : Text := ['w', 'i', 'r', 'e']

def buildPhase : Text := ['b', 'u', 'i', 'l', 'd']

def setDetail (position : Nat) (detail : Text) : Action Unit :=
  Action.onProgress (·.setDetail position detail)

def targetsDetail (targets : List Text) : Text :=
  let names := Text.join [',', ' '] targets
  if names.isEmpty then "none".toList else names

def readFiles (project : Project) : Action (Text × List Lockfile.Pin) := do
  let t ← ManifestFile.read project.manifest
  let pins ← Lockfile.readPins project.lockfile true
  return (t, pins)

/-- Selects targets among the declared ones and declares the package. -/
def prepare (project : Project) (t : Text) (reference : Reference) : Action Prepared := do
  Action.descend .locating true
  let names ← Action.ofAttempt Failure.edit (selectableTargets t)
  let selected ← project.select names
  Action.descend .declaring (selected.all names.elem)
  Action.ofAttempt Failure.edit (declareFor t reference names selected)

def prepareIn (project : Project) (t : Text) (reference : Reference) (position : Nat) :
    Action Prepared := do
  let prepared ← project.prepare t reference
  setDetail position (targetsDetail prepared.targets)
  return prepared

def resolve (project : Project) : Action Unit := do
  project.toolchain.clean
  project.toolchain.run .update
  project.toolchain.run .resolve

/-- Wires the targets and writes the outcome: also that of a wiring that failed on the way, with the
targets before the failure wired. Some characters of the identifier may stand for halves of surrogate
pairs. -/
def wireTargets (project : Project) (prepared : Prepared) (identifier : Text) (halves : List Char) :
    Action Text := do
  Action.descend .wiring !prepared.targets.isEmpty
  let attempt := wire prepared.manifest identifier prepared.targets
  Action.onProgress (·.tell attempt.log)
  match attempt.outcome with
  | .ok t =>
    ManifestFile.writeWith halves project.manifest t
    return t
  | .error (.wiring e) =>
    ManifestFile.writeWith halves project.manifest e.manifest
    Action.fail (.wiring e)
  | .error (.edit e) => Action.fail (.edit e)

def wireIn (project : Project) (prepared : Prepared) (url : Text) (position : Nat) :
    Action (Text × Text) := do
  let identifier ← Lockfile.packageNameFor project.lockfile url
  let halves ← Action.inspect fun h =>
    Lockfile.halvesAt h.disk h.here project.lockfile url
  let t ← project.wireTargets prepared identifier halves
  setDetail position identifier
  return (identifier, t)

def buildOrSkip (project : Project) : Action Unit :=
  if project.build then Action.phase buildPhase fun _ => project.toolchain.run .build
  else Action.onProgress (·.skip buildPhase "disabled".toList)

def installedFields (installed : Installed) : List (String × Field) :=
  [("url", .text installed.reference.url), ("package", .text installed.identifier),
    ("targets", .texts installed.targets), ("installed", .count installed.count)]

def install (project : Project) (reference : Reference) : Action Installed := do
  let (t, before) ← Action.phase readPhase fun _ => project.readFiles
  let prepared ← Action.phase targetsPhase (project.prepareIn t reference)
  ManifestFile.write project.manifest prepared.manifest
  Action.phase resolvePhase fun _ => project.resolve
  let (identifier, manifest) ← Action.phase wirePhase (project.wireIn prepared reference.url)
  project.buildOrSkip
  let after ← Lockfile.readPins project.lockfile false
  let installed : Installed :=
    ⟨reference, identifier, prepared.targets, Lockfile.countNew before after, manifest⟩
  Action.logged .info "mutator.installed" (installedFields installed)
  return installed

end Project

end PackageInstaller
