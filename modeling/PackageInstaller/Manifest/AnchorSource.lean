import PackageInstaller.Manifest.Anchor
import PackageInstaller.Regex
import PackageInstaller.Text.Quoted

/-!
The anchors as regular expressions, which a configuration may replace. A source has to be well
formed, and where the anchor captures something it has to have the group of that name.
-/

namespace PackageInstaller.Manifest

def Anchor.name : Anchor → Text
  | .packageCall => "package_call".toList
  | .packageDeclaration => "package_declaration".toList
  | .targetDeclaration => "target_declaration".toList
  | .stringLiteral => "string_literal".toList

def Anchor.source : Anchor → Text
  | .packageCall => "\\bPackage\\s*\\(".toList
  | .packageDeclaration => "(?:Package\\.Dependency)?\\.package\\s*\\(".toList
  | .targetDeclaration => "\\.(?P<kind>target|testTarget|executableTarget)\\s*\\(".toList
  | .stringLiteral => "\"(?P<value>(?:[^\"\\\\\\n]|\\\\.)*)\"".toList

/-- A source that is no regular expression, or lacks the group that its anchor captures. -/
inductive SourceError where
  | flawed (name : Text) (flaw : Regex.Flaw)
  | missingGroup (name group : Text)
  deriving DecidableEq, Repr

namespace SourceError

def name : SourceError → Text
  | .flawed name _ => name
  | .missingGroup name _ => name

def describe (name : Text) (reason : String) : String :=
  s!"manifest pattern {String.ofList (Text.quoted name)} is invalid: {reason}"

def message : SourceError → String
  | .flawed name flaw => describe name flaw.message
  | .missingGroup name group => describe name s!"missing the '{String.ofList group}' group"

end SourceError

abbrev Sources := List (Text × Text)

namespace Sources

def defaults : Sources :=
  [Anchor.packageCall, .packageDeclaration, .targetDeclaration, .stringLiteral].map fun anchor =>
    (anchor.name, anchor.source)

/-- The default sources with some of them replaced, and then the further ones. -/
def withOverrides (overrides : Sources) : Sources :=
  (defaults.map fun (name, source) => (name, (overrides.lookup name).getD source)) ++
    overrides.filter fun (name, _) => (defaults.lookup name).isNone

def requiredGroups : List (Anchor × Text) :=
  [(.targetDeclaration, ['k', 'i', 'n', 'd']), (.stringLiteral, ['v', 'a', 'l', 'u', 'e'])]

def hasGroup (sources : Sources) (anchor : Anchor) (group : Text) : Bool :=
  (sources.lookup anchor.name).any fun source =>
    match Regex.groupNames source with
    | .ok names => names.elem group
    | .error _ => false

def flaw? (entry : Text × Text) : Option SourceError :=
  match Regex.groupNames entry.2 with
  | .ok _ => none
  | .error flaw => some (.flawed entry.1 flaw)

/-- All sources, once each of them is found to be in order. -/
def configure (overrides : Sources) : Except SourceError Sources :=
  let sources := withOverrides overrides
  match sources.findSome? flaw? with
  | some e => .error e
  | none =>
    match requiredGroups.find? fun (anchor, group) => !hasGroup sources anchor group with
    | some (anchor, group) => .error (.missingGroup anchor.name group)
    | none => .ok sources

end Sources

end PackageInstaller.Manifest
