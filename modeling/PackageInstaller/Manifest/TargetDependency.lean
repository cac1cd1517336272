import PackageInstaller.Manifest.EditError
import PackageInstaller.Manifest.Layout
import PackageInstaller.Manifest.Target

/-!
Adding a package to the dependencies of one target.
-/

namespace PackageInstaller.Manifest

def appendElement (t : Text) (array : ArgumentList) (element : Text) : Scan Text :=
  if array.items.isEmpty then .ok (Layout.fillEmpty t array element false)
  else Layout.insertAfter t array (array.items.length - 1) element

/-- The manifest with the identifier as the last of the target's dependencies; unchanged when the
target lists it already. -/
def addTargetDependency (t : Text) (target identifier : Text) : Attempt EditError Text := do
  let targets ← (locateTargets t).mapError .scan
  match targets.find? (·.name = target) with
  | none => Attempt.fail (.targetNotFound target (targets.map (·.name)))
  | some found =>
    let fields := [("target", Field.text target), ("dependency", Field.text identifier)]
    match ← Attempt.ofExcept ((targetDependencies? t found.span).mapError .scan) with
    | none => Attempt.fail (.noDependencyArray target)
    | some array =>
      if array.items.any fun item => StringLiteral.valueAt? t item.value = some identifier then
        Attempt.tell .info "manifest.target_dependency_exists" fields
        return t
      else
        let edited := appendElement t array (StringLiteral.encode identifier)
        let edited ← Attempt.ofExcept (edited.mapError .scan)
        Attempt.tell .info "manifest.target_dependency_inserted" fields
        return edited

end PackageInstaller.Manifest
