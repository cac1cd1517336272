import PackageInstaller.Manifest.Anchor
import PackageInstaller.Manifest.ArgumentList

/-!
The parts of a manifest: the package call with its dependency list, the package declarations in that
list, and the target declarations.
-/

namespace PackageInstaller.Manifest

def nameLabel : Text := ['n', 'a', 'm', 'e']

def dependenciesLabel : Text := ['d', 'e', 'p', 'e', 'n', 'd', 'e', 'n', 'c', 'i', 'e', 's']

def urlLabel : Text := ['u', 'r', 'l']

def pathLabel : Text := ['p', 'a', 't', 'h']

/-- The labels that stand before the dependency list when arguments are in their required order. -/
def labelsBeforeDependencies : List Text :=
  [nameLabel, "defaultLocalization".toList, "platforms".toList, "pkgConfig".toList,
    "providers".toList, "products".toList]

/-- The arguments of the first package call. -/
def packageArguments? (t : Text) : Scan (Option ArgumentList) := do
  match ← Anchor.packageCall.codeOccurrences t 0 t.length with
  | [] => return none
  | first :: _ => return some (← splitArguments t first.opener)

/-- The array literal that begins where `value` begins, if one does. -/
def arrayAt? (t : Text) (value : Span) : Scan (Option ArgumentList) :=
  match t[value.start]? with
  | none => .error .pastEnd
  | some '[' => (splitArguments t value.start).map some
  | some _ => .ok none

/-- The array among the arguments that the first `dependencies` label names. -/
def dependencyArray? (t : Text) (args : ArgumentList) : Scan (Option ArgumentList) :=
  match args.find? dependenciesLabel with
  | none => .ok none
  | some item => arrayAt? t item.value

/-- The last of the arguments that have to stand before a dependency list. -/
def dependencyListAnchor? (args : ArgumentList) : Option Nat :=
  (args.items.zipIdx.filter fun (item, _) =>
    item.label.any fun label => labelsBeforeDependencies.elem label).getLast?.map (·.2)

def isPackageDeclaration (t : Text) (span : Span) : Bool :=
  (declarationLength? (t.slice span.start span.stop)).isSome

/-- The indices of the package declarations in a dependency list. -/
def existingDependencies (t : Text) (list : ArgumentList) : List Nat :=
  (list.items.zipIdx.filter fun (item, _) => isPackageDeclaration t item.value).map (·.2)

def declarationArguments? (t : Text) (span : Span) : Scan (Option ArgumentList) :=
  match declarationLength? (t.slice span.start span.stop) with
  | none => .ok none
  | some n => (splitArguments t (span.start + n - 1)).map some

/-- The value of the `url` argument of a package declaration, or of its `path` argument. -/
def declarationUrl? (t : Text) (span : Span) : Scan (Option Text) := do
  match ← declarationArguments? t span with
  | none => return none
  | some args =>
    return ((args.find? urlLabel).or (args.find? pathLabel)).bind fun item =>
      StringLiteral.valueAt? t item.value

def targetArguments? (t : Text) (span : Span) : Scan (Option ArgumentList) :=
  match targetLength? (t.slice span.start span.stop) with
  | none => .ok none
  | some (n, _) => (splitArguments t (span.start + n - 1)).map some

def targetDependencies? (t : Text) (span : Span) : Scan (Option ArgumentList) := do
  match ← targetArguments? t span with
  | none => return none
  | some args => dependencyArray? t args

/-- The whole of the call that an occurrence opens. -/
def callSpan (t : Text) (o : Occurrence) : Scan Span :=
  (findClosing t o.opener).map fun closer => ⟨o.span.start, closer + 1⟩

/-- Every target declaration, nested ones included, with the span of its call. -/
def targetDeclarations (t : Text) : Scan (List (Occurrence × Span)) := do
  let found ← Anchor.targetDeclaration.codeOccurrences t 0 t.length
  found.mapM fun o => (callSpan t o).map (o, ·)

end PackageInstaller.Manifest
