import PackageInstaller.Log
import PackageInstaller.Manifest.EditError
import PackageInstaller.Manifest.Layout
import PackageInstaller.Manifest.PackageCall
import PackageInstaller.Repository

/-!
The top-level dependency list: the packages it declares, and adding one more.
-/

namespace PackageInstaller.Manifest

/-- How a package is declared in a dependency list. -/
def renderDeclaration (reference : Reference) : Text :=
  ".package(url: ".toList ++ StringLiteral.encode reference.url ++ ", .exact(".toList ++
    StringLiteral.encode reference.version ++ "))".toList

def urlsAt (t : Text) (list : ArgumentList) (indices : List Nat) : Scan (List Text) := do
  let urls ← (indices.filterMap (list.items[·]?)).mapM fun item => declarationUrl? t item.value
  return urls.filterMap id

/-- The URLs of the packages that the first package call declares. -/
def declaredUrls (t : Text) : Scan (List Text) := do
  match ← packageArguments? t with
  | none => return []
  | some args =>
    match ← dependencyArray? t args with
    | none => return []
    | some list => urlsAt t list (existingDependencies t list)

/-- Whether one of the declarations has this canonical URL. The first that has it ends the search. -/
def declaresUrl (t : Text) (wanted : Text) : List Argument → Scan Bool
  | [] => .ok false
  | item :: rest => do
    match ← declarationUrl? t item.value with
    | none => declaresUrl t wanted rest
    | some url =>
      if Repository.canonicalUrl url = wanted then return true else declaresUrl t wanted rest

inductive Placement where
  | newList
  | afterLast
  | first
  deriving DecidableEq

def Placement.word : Placement → Text
  | .newList => "new_list".toList
  | .afterLast => "after_last".toList
  | .first => "first".toList

/-- A whole `dependencies` argument to stand after the item at `anchor`. -/
def renderList (t : Text) (args : ArgumentList) (anchor : Argument) (declaration : Text) : Text :=
  if Layout.isMultiline t args then
    let indent := Layout.lineIndent t anchor.span.start
    dependenciesLabel ++ ": [\n".toList ++ indent ++ Layout.indentUnit indent ++ declaration ++
      '\n' :: indent ++ [']']
  else dependenciesLabel ++ ": [".toList ++ declaration ++ [']']

def addList (t : Text) (args : ArgumentList) (declaration : Text) : Except EditError Text :=
  if (args.find? dependenciesLabel).isSome then .error .dependenciesNotArray
  else
    match dependencyListAnchor? args with
    | none => .error .noListAnchor
    | some index =>
      match args.items[index]? with
      | none => .error (.scan .noItem)
      | some anchor =>
        (Layout.insertAfter t args index (renderList t args anchor declaration)).mapError .scan

def addToList (t : Text) (list : ArgumentList) (reference : Reference) :
    Except EditError (Placement × Text) := do
  let existing := existingDependencies t list
  let declared := existing.filterMap (list.items[·]?)
  if ← (declaresUrl t (Repository.canonicalUrl reference.url) declared).mapError .scan then
    throw (.alreadyDeclared reference.url)
  let declaration := renderDeclaration reference
  match existing.getLast? with
  | some last =>
    return (.afterLast, ← (Layout.insertAfter t list last declaration).mapError .scan)
  | none =>
    if list.items.isEmpty then return (.first, Layout.fillEmpty t list declaration true)
    else return (.first, ← (Layout.prepend t list declaration).mapError .scan)

def placePackage (t : Text) (reference : Reference) : Except EditError (Placement × Text) := do
  match ← (packageArguments? t).mapError .scan with
  | none => throw .noPackageCall
  | some args =>
    match ← (dependencyArray? t args).mapError .scan with
    | none => return (.newList, ← addList t args (renderDeclaration reference))
    | some list => addToList t list reference

/-- The manifest with one declaration more: after the last declaration of its dependency list, as
the first element of a list that has none, or in a new list where the package call has no list. A
package that is declared already is refused. -/
def addPackage (t : Text) (reference : Reference) : Attempt EditError Text := do
  let (placement, edited) ← Attempt.ofExcept (placePackage t reference)
  Attempt.tell .info "manifest.dependency_inserted"
    [("url", .text reference.url), ("version", .text reference.version),
      ("placement", .text placement.word)]
  return edited

end PackageInstaller.Manifest
