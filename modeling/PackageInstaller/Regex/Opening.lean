import PackageInstaller.Number.Decimal
import PackageInstaller.Regex.Escape
import PackageInstaller.Text.Word

/-!
What an opening parenthesis of a regular expression begins, which the characters after it tell.
-/

namespace PackageInstaller.Regex

/-- Flags that are set and unset, by their letters. -/
structure Flags where
  on : Text
  off : Text
  deriving DecidableEq, Repr

inductive Condition where
  | named (name : Text)
  | numbered (group : Nat)
  deriving DecidableEq, Repr

inductive Opening where
  | capture (name : Option Text)
  | group (flags : Flags)
  | lookAhead
  | lookBehind
  | condition (on : Condition)
  | reference (name : Text)
  | flags (flags : Flags)
  | comment
  deriving DecidableEq, Repr

/-- Names are made of word characters and do not begin with a digit. -/
def isName : Text → Bool
  | [] => false
  | c :: t => (Text.digitValue? c).isNone && (c :: t).all Text.isWord

/-- The unescaped text up to a character, and the number of tokens that it and the character take. -/
def plainUpTo? (stop : Char) (t : List Token) : Option (Text × Nat) := do
  let before ← upTo? stop t
  let word := plainRun (fun _ => true) before.length before
  guard (word.length = before.length)
  return (word, word.length + 1)

def nameUpTo? (stop : Char) (t : List Token) : Option (Text × Nat) :=
  (plainUpTo? stop t).filter fun (name, _) => isName name

def conditionOf? (word : Text) : Option Condition :=
  if isName word then some (.named word)
  else (Number.readWhole? word).bind fun n => if n < 0 then none else some (.numbered n.toNat)

def isFlag (c : Char) : Bool := ['i', 'L', 'm', 's', 'x', 'a', 't', 'u'].elem c

/-- The flags that say which characters belong to a class; they exclude each other. -/
def isClassFlag (c : Char) : Bool := ['a', 'L', 'u'].elem c

def Flags.areConsistent (f : Flags) : Bool :=
  !f.on.elem 'L' && !(f.on.elem 'a' && f.on.elem 'u') && !f.off.any isClassFlag &&
    !f.on.any f.off.elem

/-- Flags that a group is opened with; one of them is for whole sources only. -/
def Flags.fitGroup (f : Flags) : Bool := f.areConsistent && !f.on.elem 't' && !f.off.elem 't'

/-- Flags for the rest of the source, or for a group that a colon opens. -/
def flags? (t : List Token) : Option (Opening × Nat) :=
  let on := plainRun isFlag t.length t
  let forGroup (f : Flags) (n : Nat) : Option (Opening × Nat) :=
    if f.fitGroup then some (.group f, n) else none
  match t.drop on.length with
  | .plain ')' :: _ =>
    if !on.isEmpty && Flags.areConsistent ⟨on, []⟩ then some (.flags ⟨on, []⟩, on.length + 1)
    else none
  | .plain ':' :: _ => forGroup ⟨on, []⟩ (on.length + 1)
  | .plain '-' :: rest =>
    let off := plainRun isFlag rest.length rest
    match rest.drop off.length with
    | .plain ':' :: _ =>
      if off.isEmpty then none else forGroup ⟨on, off⟩ (on.length + off.length + 2)
    | _ => none
  | _ => none

/-- The opening that follows a parenthesis and a question mark, and its number of tokens. -/
def extended? : List Token → Option (Opening × Nat)
  | .plain 'P' :: .plain '<' :: t =>
    (nameUpTo? '>' t).map fun (name, n) => (.capture (some name), n + 2)
  | .plain 'P' :: .plain '=' :: t =>
    (nameUpTo? ')' t).map fun (name, n) => (.reference name, n + 2)
  | .plain '>' :: _ => some (.group ⟨[], []⟩, 1)
  | .plain '#' :: t => (upTo? ')' t).map fun before => (.comment, before.length + 2)
  | .plain '=' :: _ => some (.lookAhead, 1)
  | .plain '!' :: _ => some (.lookAhead, 1)
  | .plain '<' :: .plain '=' :: _ => some (.lookBehind, 2)
  | .plain '<' :: .plain '!' :: _ => some (.lookBehind, 2)
  | .plain '(' :: t => do
    let (word, n) ← plainUpTo? ')' t
    return (.condition (← conditionOf? word), n + 1)
  | t => flags? t

/-- The opening whose parenthesis has been read, and the number of its further tokens. -/
def opening? : List Token → Option (Opening × Nat)
  | .plain '?' :: t => (extended? t).map fun (opening, n) => (opening, n + 1)
  | _ => some (.capture none, 0)

end PackageInstaller.Regex
