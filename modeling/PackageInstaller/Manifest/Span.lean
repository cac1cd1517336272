/-!
Half-open intervals of offsets.
-/

namespace PackageInstaller.Manifest

structure Interval (α : Type) where
  start : α
  stop : α
  deriving DecidableEq, Repr

abbrev Span := Interval Nat

namespace Interval

def contains (r : Interval Int) (offset : Int) : Bool := r.start ≤ offset && offset < r.stop

/-- The number of offsets inside; an interval that stops before it starts has none to give. -/
def length? (r : Interval Int) : Option Nat :=
  if r.start ≤ r.stop then some (r.stop - r.start).toNat else none

end Interval

namespace Span

def toInterval (s : Span) : Interval Int := ⟨s.start, s.stop⟩

def shift (d : Nat) (s : Span) : Span := ⟨d + s.start, d + s.stop⟩

end Span

end PackageInstaller.Manifest
