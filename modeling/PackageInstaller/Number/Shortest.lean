import PackageInstaller.Number.Double
import PackageInstaller.Text

/-!
The text of a double: the fewest digits that read back as it, the nearest of those, in positional
notation while the point stands near them.
-/

namespace PackageInstaller.Number

def decimalDigits (n : Nat) : Text := Nat.toDigits 10 n

/-- The digits of a number and the place of the point: `0.digits * 10 ^ point`. -/
structure Digits where
  digits : Text
  point : Int
  deriving DecidableEq, Repr

/-- The numbers that round to a double, ends included where it is even; all over one denominator. -/
structure Neighbourhood where
  value : Nat
  low : Nat
  high : Nat
  denominator : Nat
  withEnds : Bool

def neighbourhood (d : Double) : Neighbourhood :=
  let unit := twoPower (d.exponent - 2)
  let below := if d.mantissa = fractionBits ∧ d.exponent ≠ least then 1 else 2
  ⟨4 * d.mantissa * unit, (4 * d.mantissa - below) * unit, (4 * d.mantissa + 2) * unit,
    twoPower (2 - d.exponent), d.mantissa % 2 = 0⟩

/-- The place of the point in a positive fraction. -/
def pointOf (num den : Nat) : Int :=
  if den ≤ num then (decimalDigits (num / den)).length
  else 1 - ((decimalDigits ((den - 1) / num)).length : Int)

/-- The nearest of the two grid points around the value that rounds to it, on the grid of `count`
digits. -/
def onGrid? (n : Neighbourhood) (point : Int) (count : Nat) : Option Nat :=
  let step := n.denominator * tenPower (point - count)
  let scale := tenPower (count - point)
  let value := n.value * scale
  let rounds (c : Nat) : Bool :=
    if n.withEnds then n.low * scale ≤ c * step && c * step ≤ n.high * scale
    else n.low * scale < c * step && c * step < n.high * scale
  let below := value / step
  let nearer := roundedQuotient value step
  if rounds nearer then some nearer
  else if rounds below then some below
  else if rounds (below + 1) then some (below + 1)
  else none

def trimZeros (t : Text) : Text := t.trimRight (· = '0')

def shortestFrom (n : Neighbourhood) (point : Int) (count : Nat) : Nat → Digits
  | 0 => ⟨[], point⟩
  | more + 1 =>
    match onGrid? n point count with
    | some c =>
      let digits := decimalDigits c
      ⟨trimZeros digits, point + (digits.length - count)⟩
    | none => shortestFrom n point (count + 1) more

/-- Seventeen digits always suffice. -/
def shortest (d : Double) : Digits :=
  let n := neighbourhood d
  shortestFrom n (pointOf n.value n.denominator) 1 17

def zeros (n : Int) : Text := List.replicate n.toNat '0'

def positional (d : Digits) : Text :=
  if d.point ≤ 0 then ['0', '.'] ++ zeros (-d.point) ++ d.digits
  else
    let whole := d.digits.take d.point.toNat
    let rest := d.digits.drop d.point.toNat
    whole ++ zeros (d.point - d.digits.length) ++ ['.'] ++ (if rest.isEmpty then ['0'] else rest)

def exponentText (e : Int) : Text :=
  let digits := decimalDigits e.natAbs
  ['e', if e < 0 then '-' else '+'] ++ zeros (2 - digits.length) ++ digits

def scientific (d : Digits) : Text :=
  let rest := d.digits.drop 1
  d.digits.take 1 ++ (if rest.isEmpty then [] else '.' :: rest) ++ exponentText (d.point - 1)

def magnitudeText (d : Double) : Text :=
  if d.mantissa = 0 then ['0', '.', '0']
  else
    let s := shortest d
    if -4 < s.point ∧ s.point ≤ 16 then positional s else scientific s

def doubleText (x : Float) : Text :=
  match double? x with
  | some d => (if d.negative then ['-'] else []) ++ magnitudeText d
  | none =>
    if magnitudeBits x ≠ infinityBits then ['n', 'a', 'n']
    else if isNegative x then ['-', 'i', 'n', 'f'] else ['i', 'n', 'f']

end PackageInstaller.Number
