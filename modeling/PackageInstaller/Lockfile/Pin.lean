import PackageInstaller.Json
import PackageInstaller.Repository

/-!
The packages that a lockfile pins. Lockfiles come in two layouts: the first one keeps its pins
inside an object of their own and has other names for the members of a pin.
-/

namespace PackageInstaller.Lockfile

structure Pin where
  url : Text
  name : Text
  deriving DecidableEq, Repr

/-- What makes two pins pins of one package. -/
def Pin.key (pin : Pin) : Text := Repository.canonicalUrl pin.url

structure Layout where
  urlMember : Text
  nameMember : Text
  deriving DecidableEq, Repr

def firstLayout : Layout := ⟨"repositoryURL".toList, "package".toList⟩

def laterLayout : Layout := ⟨"location".toList, "identity".toList⟩

inductive LayoutFault where
  | notObject
  | noPins
  | pinNotObject
  | pinWithout (layout : Layout)
  deriving DecidableEq, Repr

def LayoutFault.describe : LayoutFault → String
  | .notObject => "top level is not an object"
  | .noPins => "no 'pins' list"
  | .pinNotObject => "pin is not an object"
  | .pinWithout layout =>
    s!"pin without '{String.ofList layout.urlMember}'/'{String.ofList layout.nameMember}'"

def objectMember : Text := ['o', 'b', 'j', 'e', 'c', 't']

def pinsMember : Text := ['p', 'i', 'n', 's']

/-- The layout of a lockfile and the members among which its pins are. -/
def layoutOf (members : List (Text × Json)) : Layout × List (Text × Json) :=
  match Json.lastMember? members objectMember with
  | some (.object inner) => (firstLayout, inner)
  | _ => (laterLayout, members)

def textMember? (members : List (Text × Json)) (name : Text) : Option Text :=
  (Json.lastMember? members name).bind Json.asString?

def pinOf (layout : Layout) : Json → Except LayoutFault Pin
  | .object members =>
    match textMember? members layout.urlMember, textMember? members layout.nameMember with
    | some url, some name => .ok ⟨url, name⟩
    | _, _ => .error (.pinWithout layout)
  | _ => .error .pinNotObject

/-- All pins in the order of the file, or the fault of the first entry that is none. -/
def pinsOf : Json → Except LayoutFault (List Pin)
  | .object members =>
    let (layout, holder) := layoutOf members
    match Json.lastMember? holder pinsMember with
    | some (.array entries) => entries.mapM (pinOf layout)
    | _ => .error .noPins
  | _ => .error .notObject

/-- The keys that are not known yet, each once. -/
def newKeys (known : List Text) : List Text → List Text
  | [] => []
  | key :: rest =>
    if known.elem key then newKeys known rest else key :: newKeys (key :: known) rest

/-- The number of packages pinned after and not before. -/
def countNew (before after : List Pin) : Nat :=
  (newKeys (before.map Pin.key) (after.map Pin.key)).length

end PackageInstaller.Lockfile
