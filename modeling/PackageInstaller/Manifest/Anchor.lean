import PackageInstaller.Manifest.LiteralIndex
import PackageInstaller.Manifest.StringLiteral
import PackageInstaller.Text.Word

/-!
The words that begin the parts of a manifest worth looking at, and where they stand in its code:
outside every comment and string literal.
-/

namespace PackageInstaller.Manifest

inductive TargetKind where
  | target
  | testTarget
  | executableTarget
  deriving DecidableEq, Repr

def TargetKind.word : TargetKind → Text
  | .target => ['t', 'a', 'r', 'g', 'e', 't']
  | .testTarget => ['t', 'e', 's', 't', 'T', 'a', 'r', 'g', 'e', 't']
  | .executableTarget =>
    ['e', 'x', 'e', 'c', 'u', 't', 'a', 'b', 'l', 'e', 'T', 'a', 'r', 'g', 'e', 't']

inductive Anchor where
  | packageCall
  | packageDeclaration
  | targetDeclaration
  | stringLiteral
  deriving DecidableEq, Repr

/-- A word with its opening parenthesis, which is its last character. -/
structure Occurrence where
  span : Span
  capture : Option Text
  deriving DecidableEq, Repr

def Occurrence.opener (o : Occurrence) : Nat := o.span.stop - 1

/-- The length of `word`, blanks and an opening parenthesis at the head of a text. -/
def callLength? (word t : Text) : Option Nat :=
  if word.isPrefixOf t then
    let rest := t.drop word.length
    match rest.dropWhile Text.isBlank with
    | '(' :: _ => some (word.length + (rest.takeWhile Text.isBlank).length + 1)
    | _ => none
  else none

def packageWord : Text := ['P', 'a', 'c', 'k', 'a', 'g', 'e']

def dependencyWord : Text :=
  packageWord ++ ['.', 'D', 'e', 'p', 'e', 'n', 'd', 'e', 'n', 'c', 'y']

def declarationWord : Text := ['.', 'p', 'a', 'c', 'k', 'a', 'g', 'e']

def declarationLength? (t : Text) : Option Nat :=
  if dependencyWord.isPrefixOf t then callLength? (dependencyWord ++ declarationWord) t
  else callLength? declarationWord t

def targetKinds : List TargetKind := [.target, .testTarget, .executableTarget]

def targetLength? (t : Text) : Option (Nat × TargetKind) :=
  targetKinds.findSome? fun kind => (callLength? ('.' :: kind.word) t).map (·, kind)

namespace Anchor

/-- What the anchor matches at the head of a text, with the character before it in hand. -/
def matchHead? (anchor : Anchor) (before : Option Char) (t : Text) : Option (Nat × Option Text) :=
  match anchor with
  | .packageCall =>
    if before.any Text.isWord then none else (callLength? packageWord t).map (·, none)
  | .packageDeclaration => (declarationLength? t).map (·, none)
  | .targetDeclaration => (targetLength? t).map fun (n, kind) => (n, some kind.word)
  | .stringLiteral =>
    match t with
    | '"' :: rest => (StringLiteral.bodyLength? rest).map fun n => (n + 1, some (rest.take (n - 1)))
    | _ => none

def occurrencesFrom (anchor : Anchor) : Nat → Nat → Option Char → Text → List Occurrence
  | _, _, _, [] => []
  | skip + 1, pos, _, c :: t => occurrencesFrom anchor skip (pos + 1) (some c) t
  | 0, pos, before, c :: t =>
    match anchor.matchHead? before (c :: t) with
    | some (n, capture) =>
      ⟨⟨pos, pos + n⟩, capture⟩ :: occurrencesFrom anchor (n - 1) (pos + 1) (some c) t
    | none => occurrencesFrom anchor 0 (pos + 1) (some c) t

def charBefore? (t : Text) : Nat → Option Char
  | 0 => none
  | i + 1 => t[i]?

/-- The anchor's occurrences between two offsets, none overlapping the one before it. -/
def occurrences (anchor : Anchor) (t : Text) (start stop : Nat) : List Occurrence :=
  anchor.occurrencesFrom 0 start (charBefore? t start) (t.slice start stop)

/-- The occurrences that begin in code. -/
def codeOccurrences (anchor : Anchor) (t : Text) (start stop : Nat) : Scan (List Occurrence) := do
  let index ← LiteralIndex.ofText t
  return (anchor.occurrences t start stop).filter fun o => !index.holds o.span.start

end Anchor

end PackageInstaller.Manifest
