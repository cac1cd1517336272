import PackageInstaller.Json
import PackageInstaller.Repository

/-!
What the catalog's answers have to look like. Everything that is wrong with an answer is found, each
problem with the way to the place where it is.
-/

namespace PackageInstaller.Catalog

inductive Part where
  | member (name : Text)
  | item (index : Nat)
  deriving DecidableEq, Repr

inductive ProblemKind where
  | missing
  | notString
  | notObject
  | notList
  deriving DecidableEq, Repr

structure Problem where
  location : List Part
  kind : ProblemKind
  deriving DecidableEq, Repr

abbrev Checked := Except (List Problem)

def Problem.under (part : Part) (p : Problem) : Problem := ⟨part :: p.location, p.kind⟩

variable {α β : Type}

def problem (kind : ProblemKind) : Checked α := .error [⟨[], kind⟩]

def within (part : Part) (c : Checked α) : Checked α := c.mapError (·.map (Problem.under part))

/-- Both, or the problems of both. -/
def both : Checked α → Checked β → Checked (α × β)
  | .ok a, .ok b => .ok (a, b)
  | .ok _, .error ps => .error ps
  | .error ps, .ok _ => .error ps
  | .error ps, .error qs => .error (ps ++ qs)

def string : Json → Checked Text
  | .string value => .ok value
  | _ => problem .notString

def object (f : List (Text × Json) → Checked α) : Json → Checked α
  | .object members => f members
  | _ => problem .notObject

/-- A member by its name, or by its other name where it has one and the first is not there. -/
def member (name : Text) (otherName : Option Text) (f : Json → Checked α)
    (members : List (Text × Json)) : Checked α :=
  match Json.lastMember? members name with
  | some value => within (.member name) (f value)
  | none =>
    match otherName.bind fun other => (Json.lastMember? members other).map (other, ·) with
    | some (other, value) => within (.member other) (f value)
    | none => within (.member name) (problem .missing)

def itemsFrom (f : Json → Checked α) (index : Nat) : List Json → Checked (List α)
  | [] => .ok []
  | value :: rest =>
    (both (within (.item index) (f value)) (itemsFrom f (index + 1) rest)).map fun (a, as) => a :: as

def list (f : Json → Checked α) : Json → Checked (List α)
  | .array values => itemsFrom f 0 values
  | _ => problem .notList

def reference (url version : List (Text × Json) → Checked Text) : Json → Checked Reference :=
  object fun members => (both (url members) (version members)).map fun (u, v) => ⟨u, v⟩

/-- The answer to a look-up of one package. -/
def package : Json → Checked Reference :=
  reference (member "ghUrl".toList (some "gh_url".toList) string)
    (member "version".toList none string)

def source : Json → Checked Reference :=
  reference (member "git_clone_url".toList none string)
    (member "latest_version".toList none string)

def hit : Json → Checked Reference :=
  object (member "_source".toList (some "source".toList) source)

/-- The answer to a search, with its hits two levels down. -/
def searchHits : Json → Checked (List Reference) :=
  let hits := object (member "hits".toList none (list hit))
  let data := object (member "hits".toList none hits)
  object (member "data".toList none data)

end PackageInstaller.Catalog
