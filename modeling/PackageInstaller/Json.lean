import PackageInstaller.Text

/-!
JSON values. Of two members with one name the last counts.
-/

namespace PackageInstaller

inductive Json where
  | null
  | bool (value : Bool)
  | number (digits : Text)
  | string (value : Text)
  | array (items : List Json)
  | object (members : List (Text × Json))
  deriving Inhabited

namespace Json

def lastMember? (members : List (Text × Json)) (name : Text) : Option Json :=
  members.reverse.lookup name

def asString? : Json → Option Text
  | .string value => some value
  | _ => none

end Json

end PackageInstaller
