import PackageInstaller.Manifest.ScanError

/-!
Why a manifest cannot be edited as asked.
-/

namespace PackageInstaller.Manifest

def commaSeparated (names : List Text) : String := String.ofList (Text.join [',', ' '] names)

def quotedName (name : Text) : String := String.ofList (Text.quoted name)

inductive EditError where
  | scan (cause : ScanError)
  | noPackageCall
  | dependenciesNotArray
  | noListAnchor
  | noTargets
  | noDependencyArray (target : Text)
  | targetNotFound (target : Text) (available : List Text)
  | alreadyDeclared (url : Text)
  deriving DecidableEq

namespace EditError

def targetNotFoundMessage (target : Text) (available : List Text) : String :=
  let declared :=
    if available.isEmpty then "" else s!" (declared targets: {commaSeparated available})"
  s!"Attempted to add a dependency to a non-existent target {quotedName target}{declared}"

def message : EditError → String
  | .scan cause => cause.message
  | .noPackageCall => "no `Package(` declaration found in the manifest"
  | .dependenciesNotArray => "the package `dependencies:` argument is not an array literal"
  | .noListAnchor =>
    "no dependency list found and no `name:`, `platforms:` or `products:` field to anchor a new one"
  | .noTargets => "no targets are declared in the manifest"
  | .noDependencyArray target =>
    s!"pattern not found within target span: target {quotedName target} has no `dependencies: [...]` array"
  | .targetNotFound target available => targetNotFoundMessage target available
  | .alreadyDeclared url => s!"package {quotedName url} is already declared in the manifest"

/-- A structure that the edit needs is missing from the text or broken in it. -/
def isStructural : EditError → Bool
  | .scan cause => cause.isStructural
  | .targetNotFound _ _ => false
  | .alreadyDeclared _ => false
  | _ => true

def isTargetNotFound : EditError → Bool
  | .targetNotFound _ _ => true
  | _ => false

def isDuplicate : EditError → Bool
  | .alreadyDeclared _ => true
  | _ => false

end EditError

/-- A target that could not be wired. Those before it are, and `manifest` is the text with them. -/
structure WiringError where
  target : Text
  wired : List Text
  manifest : Text
  cause : EditError
  deriving DecidableEq

namespace WiringError

def describe (target : Text) (wired : List Text) (cause : String) : String :=
  let done := if wired.isEmpty then "none" else commaSeparated wired
  s!"failed to add the dependency to target {quotedName target}: {cause} (already wired: {done})"

def message (e : WiringError) : String := describe e.target e.wired e.cause.message

end WiringError

end PackageInstaller.Manifest
