import PackageInstaller.Text.Lowercase

/-!
Where a package comes from: repository URLs, and the names that packages are asked for by.
-/

namespace PackageInstaller

/-- A package to add, and which version of it. -/
structure Reference where
  url : Text
  version : Text
  deriving DecidableEq

namespace Repository

def gitSuffix : Text := ['.', 'g', 'i', 't']

/-- One spelling for all the spellings of a URL: case, blanks around it, slashes at its end and then
one `.git` do not matter. -/
def canonicalUrl (url : Text) : Text :=
  let bare := (Text.strip url).trimRight (· = '/')
  Text.lower (if gitSuffix.isSuffixOf (Text.lower bare) then Text.dropRight bare 4 else bare)

def isNameChar (c : Char) : Bool := c.isAlphanum || c = '_' || c = '.' || c = '-'

def isName (t : Text) : Bool := !t.isEmpty && t.all isNameChar

/-- Whether a name, blanks around it apart, is an owner and a repository with one slash between. -/
def isOwnerAndName (name : Text) : Bool :=
  let name := Text.strip name
  let owner := name.takeWhile (· ≠ '/')
  match name.dropWhile (· ≠ '/') with
  | _ :: repository => isName owner && isName repository
  | [] => false

end Repository

end PackageInstaller
