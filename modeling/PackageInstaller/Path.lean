import PackageInstaller.Text

/-!
File paths: names, joined by slashes, that begin at a root or wherever one stands. A path has one
form: empty names and single dots are dropped when it is read.
-/

namespace PackageInstaller

structure Path where
  root : Text
  names : List Text
  deriving DecidableEq, Repr

namespace Path

/-- The names between the slashes; `name` is the reversed beginning of the first. -/
def split (name : Text) : Text → List Text
  | [] => [name.reverse]
  | c :: t => if c = '/' then name.reverse :: split [] t else split (c :: name) t

def isKept (name : Text) : Bool := !name.isEmpty && name != ['.']

/-- Two leading slashes are a root of their own; three or more are as good as one. -/
def rootOf (t : Text) : Text :=
  let slashes := t.takeWhile (· = '/')
  if slashes.length ≤ 2 then slashes else ['/']

def ofText (t : Text) : Path := ⟨rootOf t, (split [] t).filter isKept⟩

/-- A null character ends a path for the machine, so no file can be reached by a path with one. -/
def isUsable (p : Path) : Bool := !p.names.any (·.elem '\x00')

def text (p : Path) : Text :=
  if p.root.isEmpty && p.names.isEmpty then ['.'] else p.root ++ Text.join ['/'] p.names

/-- The second path as seen from the first; one that begins at a root does not change. -/
def join (p q : Path) : Path := if q.root.isEmpty then ⟨p.root, p.names ++ q.names⟩ else q

end Path

end PackageInstaller
