import PackageInstaller.Manifest.Literal
import PackageInstaller.Manifest.Span
import PackageInstaller.Text.Classes
import PackageInstaller.Text.Word

/-!
The arguments of a call and the elements of an array literal, and what stands between them and their
parts: blanks and comments.
-/

namespace PackageInstaller.Manifest

def opensComment (t : Text) : Bool :=
  match opening? t with
  | some .lineComment => true
  | some .blockComment => true
  | _ => false

def triviaEndFrom (stop : Nat) : Nat → Nat → Text → Scan Nat
  | skip + 1, pos, _ :: t => triviaEndFrom stop skip (pos + 1) t
  | _, pos, [] => if pos < stop then .error .pastEnd else .ok stop
  | 0, pos, c :: t =>
    if stop ≤ pos then .ok stop
    else if Text.isBlank c then triviaEndFrom stop 0 (pos + 1) t
    else if opensComment (c :: t) then
      match literalLength? (c :: t) with
      | .error e => .error (e.shift pos)
      | .ok n => triviaEndFrom stop (n.getD 1 - 1) (pos + 1) t
    else .ok pos

/-- The first offset from `i` on that is neither blank nor in a comment, or `stop`. -/
def skipTrivia (t : Text) (i stop : Nat) : Scan Nat := triviaEndFrom stop 0 i (t.drop i)

structure Argument where
  label : Option Text
  span : Span
  value : Span
  comma : Option Nat
  deriving DecidableEq, Repr

structure ArgumentList where
  opener : Nat
  closer : Nat
  items : List Argument
  deriving DecidableEq, Repr

namespace ArgumentList

def find? (args : ArgumentList) (label : Text) : Option Argument :=
  args.items.find? (·.label = some label)

def findIndex? (args : ArgumentList) (label : Text) : Option Nat :=
  args.items.findIdx? (·.label = some label)

/-- The position of an item that is counted from the end when its index is negative. An index beyond
the items gives a position beyond them. -/
def position (args : ArgumentList) (index : Int) : Nat :=
  if 0 ≤ index then index.toNat
  else if -index ≤ args.items.length then (args.items.length + index).toNat
  else args.items.length

end ArgumentList

/-- The label at the head of an item and the offset just past its colon. A colon that another one
follows is no label's. -/
def label? : Text → Option (Text × Nat)
  | [] => none
  | c :: t =>
    if Text.isLabelStart c then
      let name := c :: t.takeWhile Text.isWord
      let blanks := ((t.dropWhile Text.isWord).takeWhile Text.isBlank).length
      match (t.dropWhile Text.isWord).dropWhile Text.isBlank with
      | ':' :: ':' :: _ => none
      | ':' :: _ => some (name, name.length + blanks + 1)
      | _ => none
    else none

/-- An element found between the brackets: its span and the comma after it. -/
structure Element where
  span : Span
  comma : Option Nat

def closeElement (current : Option Span) (comma : Option Nat) : List Element :=
  (current.map fun span => (⟨span, comma⟩ : Element)).toList

def extend (current : Option Span) (start stop : Nat) : Option Span :=
  some ⟨(current.map (·.start)).getD start, stop⟩

/-- The elements from `pos` up to `closer`; `current` is the one being read. -/
def elementsFrom (closer : Nat) : Nat → Nat → Option Span → Text → Scan (List Element)
  | _, _, current, [] => .ok (closeElement current none)
  | skip + 1, pos, current, _ :: t => elementsFrom closer skip (pos + 1) current t
  | 0, pos, current, c :: t =>
    if closer ≤ pos then .ok (closeElement current none)
    else
      match literalLength? (c :: t) with
      | .error e => .error (e.shift pos)
      | .ok (some n) =>
        let current := if opensComment (c :: t) then current else extend current pos (pos + n)
        elementsFrom closer (n - 1) (pos + 1) current t
      | .ok none =>
        if (closerOf? c).isSome then
          match groupLength (c :: t) with
          | .error e => .error (e.shift pos)
          | .ok n => elementsFrom closer (n - 1) (pos + 1) (extend current pos (pos + n)) t
        else if c = ',' then
          if current.isNone then .error (.emptyElement pos)
          else (elementsFrom closer 0 (pos + 1) none t).map (closeElement current (some pos) ++ ·)
        else if Text.isBlank c then elementsFrom closer 0 (pos + 1) current t
        else elementsFrom closer 0 (pos + 1) (extend current pos (pos + 1)) t

def argumentOf (t : Text) (element : Element) : Scan Argument :=
  match label? (t.slice element.span.start element.span.stop) with
  | none => .ok ⟨none, element.span, element.span, element.comma⟩
  | some (name, n) =>
    (skipTrivia t (element.span.start + n) element.span.stop).map fun start =>
      ⟨some name, element.span, ⟨start, element.span.stop⟩, element.comma⟩

/-- The list that the bracket at `opener` opens. -/
def splitArguments (t : Text) (opener : Nat) : Scan ArgumentList := do
  let closer ← findClosing t opener
  let elements ← elementsFrom closer 0 (opener + 1) none (t.drop (opener + 1))
  let items ← elements.mapM (argumentOf t)
  return ⟨opener, closer, items⟩

end PackageInstaller.Manifest
