/-!
Double-precision numbers as exact binary fractions, and the double nearest to a fraction. A half
between two neighbours goes to the even one.
-/

namespace PackageInstaller.Number

/-- The finite number of magnitude `mantissa * 2 ^ exponent`. -/
structure Double where
  negative : Bool
  mantissa : Nat
  exponent : Int
  deriving DecidableEq, Repr

def fractionBits : Nat := 0x10000000000000

def least : Int := -1074

def infinityBits : Nat := 2047 * fractionBits

def signBit : Nat := 0x8000000000000000

def isNegative (x : Float) : Bool := decide (signBit ≤ x.toBits.toNat)

def magnitudeBits (x : Float) : Nat := x.toBits.toNat % signBit

def double? (x : Float) : Option Double :=
  let bits := magnitudeBits x
  let power := bits / fractionBits
  let fraction := bits % fractionBits
  if infinityBits ≤ bits then none
  else if power = 0 then some ⟨isNegative x, fraction, least⟩
  else some ⟨isNegative x, fractionBits + fraction, power - 1 + least⟩

/-- The power of two; a negative exponent is taken as zero. -/
def twoPower (e : Int) : Nat := Nat.pow 2 e.toNat

def tenPower (e : Int) : Nat := Nat.pow 10 e.toNat

/-- The whole number nearest to a fraction. -/
def roundedQuotient (num den : Nat) : Nat :=
  let below := num / den
  let rest := 2 * (num % den)
  if rest < den then below
  else if den < rest then below + 1
  else below + below % 2

def withSign (negative : Bool) (bits : Nat) : Float :=
  Float.ofBits ((if negative then signBit else 0) + bits).toUInt64

/-- The power of two that gives a fraction's mantissa its 53 bits, or the least there is. -/
def binaryExponent (num den : Nat) : Int :=
  let guess : Int := num.log2 - den.log2
  let power := if num * twoPower (-guess) < den * twoPower guess then guess - 1 else guess
  max (power - 52) least

/-- The double nearest to a fraction. -/
def nearest (negative : Bool) (num den : Nat) : Float :=
  if num = 0 then withSign negative 0
  else
    let e := binaryExponent num den
    let mantissa := roundedQuotient (num * twoPower (-e)) (den * twoPower e)
    withSign negative (min infinityBits ((e - least).toNat * fractionBits + mantissa))

end PackageInstaller.Number
