import PackageInstaller.Text

/-!
How many characters a part of a regular expression can match. A look-behind goes back by its width,
which therefore has to be a single number.
-/

namespace PackageInstaller.Regex

/-- The fewest and the most characters; there is no most where something is repeated at will. -/
structure Width where
  low : Nat
  high : Option Nat
  deriving DecidableEq, Repr

namespace Width

def exactly (n : Nat) : Width := ⟨n, some n⟩

def add (v w : Width) : Width :=
  ⟨v.low + w.low, v.high.bind fun m => w.high.map (m + ·)⟩

def join (v w : Width) : Width :=
  ⟨min v.low w.low, v.high.bind fun m => w.high.map (max m)⟩

/-- The width of a repetition, which is unbounded without a largest count. -/
def times (w : Width) (least : Nat) (most : Option Nat) : Width :=
  let high := match w.high, most with
    | some 0, _ => some 0
    | _, some 0 => some 0
    | some m, some n => some (m * n)
    | _, _ => none
  ⟨w.low * least, high⟩

/-- The farthest that a look-behind may go back. -/
def reach : Nat := 0xFFFFFFFF

def isWithinReach (w : Width) : Bool := w.high = some w.low && w.low ≤ reach

end Width

/-- What has been read of a group: the alternatives before, if any, the items of the current one
before the last item, and that item, which a quantifier may still repeat. -/
structure Extent where
  alternatives : Option Width
  before : Width
  last : Width
  deriving DecidableEq, Repr

namespace Extent

def start : Extent := ⟨none, .exactly 0, .exactly 0⟩

def current (e : Extent) : Width := e.before.add e.last

def total (e : Extent) : Width := (e.alternatives.map e.current.join).getD e.current

def item (e : Extent) (w : Width) : Extent := { e with before := e.current, last := w }

def alternative (e : Extent) : Extent := ⟨some e.total, .exactly 0, .exactly 0⟩

def repeatLast (e : Extent) (least : Nat) (most : Option Nat) : Extent :=
  { e with last := e.last.times least most }

end Extent

end PackageInstaller.Regex
