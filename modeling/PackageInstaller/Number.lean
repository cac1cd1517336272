import PackageInstaller.Number.Decimal
import PackageInstaller.Number.Shortest

/-!
Numbers as clocks and settings give them: whole ones stay exact, and one double among the operands
makes the result a double.
-/

namespace PackageInstaller

inductive Number where
  | whole (n : Int)
  | real (x : Float)

namespace Number

def ofInt (n : Int) : Float := nearest (n < 0) n.natAbs 1

def toFloat : Number → Float
  | .whole n => ofInt n
  | .real x => x

def combine (onWhole : Int → Int → Int) (onReal : Float → Float → Float) : Number → Number → Number
  | .whole a, .whole b => .whole (onWhole a b)
  | a, b => .real (onReal a.toFloat b.toFloat)

def add : Number → Number → Number := combine (· + ·) (· + ·)

def sub : Number → Number → Number := combine (· - ·) (· - ·)

def isZero : Number → Bool
  | .whole n => n = 0
  | .real x => x == 0

def sum (ns : List Number) : Number := ns.foldl add (.whole 0)

/-- To two places; a half goes to the even neighbour. -/
def toCents : Number → Number
  | .whole n => .whole n
  | .real x =>
    match double? x with
    | none => .real x
    | some d =>
      let cents := roundedQuotient (100 * d.mantissa * twoPower d.exponent) (twoPower (-d.exponent))
      .real (nearest d.negative cents 100)

def wholeText (n : Int) : Text := (if n < 0 then ['-'] else []) ++ decimalDigits n.natAbs

def text : Number → Text
  | .whole n => wholeText n
  | .real x => doubleText x

def render (n : Number) : String := String.ofList n.text

def whole? : Text → Option Int
  | '-' :: t => withSign? true (unsigned? t)
  | t => withSign? false (unsigned? t)

/-- A number of digits only, with a minus or without, is whole. -/
def read? (t : Text) : Option Number :=
  match whole? t with
  | some n => some (.whole n)
  | none => (readDouble? t).map .real

end Number

end PackageInstaller
