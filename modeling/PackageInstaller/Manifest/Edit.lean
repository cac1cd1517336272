import PackageInstaller.Manifest.DependencyList
import PackageInstaller.Manifest.TargetDependency

/-!
The two halves of an installation that only concern the text of the manifest: declaring the package
for the selected targets, and wiring it into them once its name is known.
-/

namespace PackageInstaller.Manifest

structure Prepared where
  manifest : Text
  targets : List Text
  deriving DecidableEq

/-- The names that a selection is made from. -/
def selectableTargets (t : Text) : Attempt EditError (List Text) := do
  let targets ← (locateTargets t).mapError .scan
  if targets.isEmpty then Attempt.fail .noTargets else return targets.map (·.name)

/-- Declares the package, once every selected name is known to be declared. -/
def declareFor (t : Text) (reference : Reference) (names selected : List Text) :
    Attempt EditError Prepared := do
  match selected.find? fun name => !names.elem name with
  | some name => Attempt.fail (.targetNotFound name names)
  | none =>
    Attempt.tell .info "mutator.targets_selected"
      [("declared", .texts names), ("selected", .texts selected)]
    return ⟨← addPackage t reference, selected⟩

def prepare (t : Text) (reference : Reference) (select : List Text → List Text) :
    Attempt EditError Prepared := do
  let names ← selectableTargets t
  declareFor t reference names (select names)

inductive WireError where
  | wiring (e : WiringError)
  | edit (e : EditError)
  deriving DecidableEq

def WireError.message : WireError → String
  | .wiring e => e.message
  | .edit e => e.message

/-- Wires the targets in order; the first that fails ends it, and those before it stay wired. -/
def wireFrom (identifier : Text) (wired : List Text) :
    Text → List Text → Attempt WireError Text
  | t, [] => pure t
  | t, target :: rest =>
    let attempt := addTargetDependency t target identifier
    match attempt.outcome with
    | .ok edited =>
      let later := wireFrom identifier (wired ++ [target]) edited rest
      ⟨attempt.log ++ later.log, later.outcome⟩
    | .error e =>
      if e.isStructural || e.isTargetNotFound then
        let failed : Event := ⟨.warning, "mutator.target_failed",
          [("target", .text target), ("wired", .texts wired), ("error", .text e.message.toList)]⟩
        ⟨attempt.log ++ [failed], .error (.wiring ⟨target, wired, t, e⟩)⟩
      else ⟨attempt.log, .error (.edit e)⟩

def wire (t : Text) (identifier : Text) (targets : List Text) : Attempt WireError Text :=
  wireFrom identifier [] t targets

end PackageInstaller.Manifest
