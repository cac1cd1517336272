import PackageInstaller.Number.Double
import PackageInstaller.Text.Classes

/-!
Reading numbers. Digits of every script count, single underscores may stand between digits, and
blanks around the number do not matter.
-/

namespace PackageInstaller.Number

/-- The number of magnitude `digits * 10 ^ exponent`. -/
structure Decimal where
  digits : Nat
  exponent : Int
  deriving DecidableEq, Repr

def isDigit (c : Char) : Bool := '0' ≤ c && c ≤ '9'

def digitsValue (t : Text) : Nat := t.foldl (fun n c => 10 * n + (c.toNat - 48)) 0

def signed (t : Text) : Bool × Text :=
  match t with
  | '-' :: rest => (true, rest)
  | '+' :: rest => (false, rest)
  | _ => (false, t)

def unsigned? (t : Text) : Option Nat :=
  if t.isEmpty || !t.all isDigit then none else some (digitsValue t)

def withSign? (negative : Bool) (magnitude : Option Nat) : Option Int :=
  magnitude.map fun n => if negative then -(n : Int) else n

def exponentPart? : Text → Option Int
  | [] => some 0
  | c :: t =>
    if c = 'e' ∨ c = 'E' then
      let (negative, digits) := signed t
      withSign? negative (unsigned? digits)
    else none

def fractionPart : Text → Text × Text
  | '.' :: t => (t.takeWhile isDigit, t.dropWhile isDigit)
  | t => ([], t)

def decimal? (t : Text) : Option Decimal := do
  let front := t.takeWhile isDigit
  let (fraction, rest) := fractionPart (t.dropWhile isDigit)
  guard !(front ++ fraction).isEmpty
  return ⟨digitsValue (front ++ fraction), (← exponentPart? rest) - fraction.length⟩

/-- The nearest double. Beyond four hundred places it is infinite, or nothing. -/
def Decimal.nearest (negative : Bool) (d : Decimal) : Float :=
  let places := (Nat.toDigits 10 d.digits).length + d.exponent
  if d.digits = 0 ∨ places < -400 then Number.nearest negative 0 1
  else if 400 < places then withSign negative infinityBits
  else Number.nearest negative (d.digits * tenPower d.exponent) (tenPower (-d.exponent))

/-- What may stand around a number: blanks, but not the four separators among the controls. -/
def isMargin (c : Char) : Bool := Text.isBlank c && !(0x1C ≤ c.toNat && c.toNat ≤ 0x1F)

def asciiDigit (c : Char) : Char :=
  match Text.digitValue? c with
  | some n => Char.ofNat (48 + n)
  | none => c

/-- The text without its underscores, each of which has to stand between two digits. -/
def withoutUnderscores? (before : Option Char) : Text → Option Text
  | [] => some []
  | '_' :: t =>
    if before.any isDigit && t.head?.any isDigit then withoutUnderscores? (some '_') t else none
  | c :: t => (withoutUnderscores? (some c) t).map (c :: ·)

def lowerAscii (t : Text) : Text := t.map Char.toLower

def infinityWords : List Text := [['i', 'n', 'f'], "infinity".toList]

def notANumber : Float := Float.ofBits (infinityBits + fractionBits / 2).toUInt64

def magnitude? (negative : Bool) (t : Text) : Option Float :=
  if infinityWords.elem (lowerAscii t) then some (withSign negative infinityBits)
  else if lowerAscii t = ['n', 'a', 'n'] then some notANumber
  else (decimal? t).map (Decimal.nearest negative)

/-- Whether there is a minus, and what follows the sign, in plain digits. -/
def signAndBody? (t : Text) : Option (Bool × Text) :=
  (withoutUnderscores? none ((t.trim isMargin).map asciiDigit)).map signed

def readDouble? (t : Text) : Option Float := do
  let (negative, body) ← signAndBody? t
  magnitude? negative body

def readWhole? (t : Text) : Option Int := do
  let (negative, body) ← signAndBody? t
  withSign? negative (unsigned? body)

end PackageInstaller.Number
