import PackageInstaller.Manifest.ScanError

/-!
Comments, string literals and bracket groups.

A string may hold interpolated code, and code may hold strings, to any depth. The scanner keeps what
it is inside of on a stack of frames and reads the text once, from left to right: `step` looks at the
text ahead, says how many further characters belong to what it saw, and what the stack is then.
All positions count from the place where the scan began.
-/

namespace PackageInstaller.Manifest

def closerOf? : Char → Option Char
  | '(' => some ')'
  | '[' => some ']'
  | '{' => some '}'
  | _ => none

def isCloser (c : Char) : Bool := c = ')' || c = ']' || c = '}'

inductive Opening where
  | lineComment
  | blockComment
  | string (hashes : Nat) (multiline : Bool)
  deriving DecidableEq, Repr

def hashRun : Text → Nat
  | '#' :: t => hashRun t + 1
  | _ => 0

def stringOpening? (hashes : Nat) : Text → Option Opening
  | '"' :: '"' :: '"' :: _ => some (.string hashes true)
  | '"' :: _ => some (.string hashes false)
  | _ => none

def opening? : Text → Option Opening
  | '/' :: '/' :: _ => some .lineComment
  | '/' :: '*' :: _ => some .blockComment
  | t => stringOpening? (hashRun t) (t.drop (hashRun t))

def lineCommentLength (t : Text) : Nat := (t.takeWhile (· ≠ '\n')).length

/-- Block comments nest; `depth` of them are open. -/
def blockCommentLength? : Nat → Text → Option Nat
  | depth, '/' :: '*' :: t => (blockCommentLength? (depth + 1) t).map (· + 2)
  | depth, '*' :: '/' :: t =>
    if depth ≤ 1 then some 2 else (blockCommentLength? (depth - 1) t).map (· + 2)
  | depth, _ :: t => (blockCommentLength? depth t).map (· + 1)
  | _, [] => none

def quoteCount (multiline : Bool) : Nat := if multiline then 3 else 1

def escapeMark (hashes : Nat) : Text := '\\' :: List.replicate hashes '#'

def closingMark (hashes : Nat) (multiline : Bool) : Text :=
  List.replicate (quoteCount multiline) '"' ++ List.replicate hashes '#'

inductive Frame where
  | string (start hashes : Nat) (multiline : Bool)
  | group (start : Nat) (opener : Char) (expected : List Char)
  deriving DecidableEq, Repr

def Frame.unfinished : Frame → ScanError
  | .string start _ _ => .unterminatedString start
  | .group start opener _ => .unbalanced opener start

structure Move where
  extra : Nat
  stack : List Frame

def stringStep (pos start hashes : Nat) (multiline : Bool) (below : List Frame) (t : Text) :
    Scan Move :=
  let same := Frame.string start hashes multiline :: below
  if (escapeMark hashes).isPrefixOf t then
    match t.drop (hashes + 1) with
    | '(' :: _ => .ok ⟨hashes + 1, .group (pos + hashes + 1) '(' [')'] :: same⟩
    | _ => .ok ⟨hashes + 1, same⟩
  else if (closingMark hashes multiline).isPrefixOf t then
    .ok ⟨quoteCount multiline + hashes - 1, below⟩
  else if t.head? = some '\n' ∧ multiline = false then .error (.unterminatedString start)
  else .ok ⟨0, same⟩

def bracketStep (pos start : Nat) (opener : Char) (expected : List Char) (below : List Frame)
    (c : Char) : Scan Move :=
  match closerOf? c with
  | some closer => .ok ⟨0, .group start opener (closer :: expected) :: below⟩
  | none =>
    if isCloser c then
      match expected with
      | [] => .error (.mismatched c pos)
      | closer :: rest =>
        if c ≠ closer then .error (.mismatched c pos)
        else if rest = [] then .ok ⟨0, below⟩
        else .ok ⟨0, .group start opener rest :: below⟩
    else .ok ⟨0, .group start opener expected :: below⟩

def codeStep (pos start : Nat) (opener : Char) (expected : List Char) (below : List Frame)
    (c : Char) (t : Text) : Scan Move :=
  let same := Frame.group start opener expected :: below
  match opening? (c :: t) with
  | some .lineComment => .ok ⟨lineCommentLength (c :: t) - 1, same⟩
  | some .blockComment =>
    match blockCommentLength? 0 (c :: t) with
    | some n => .ok ⟨n - 1, same⟩
    | none => .error (.unterminatedComment pos)
  | some (.string hashes multiline) =>
    .ok ⟨hashes + quoteCount multiline - 1, .string pos hashes multiline :: same⟩
  | none => bracketStep pos start opener expected below c

def step (pos : Nat) (frame : Frame) (below : List Frame) (c : Char) (t : Text) : Scan Move :=
  match frame with
  | .string start hashes multiline => stringStep pos start hashes multiline below (c :: t)
  | .group start opener expected => codeStep pos start opener expected below c t

/-- Skips `extra` characters, then steps until the stack is empty, and tells the position then. -/
def run : Nat → Nat → List Frame → Text → Scan Nat
  | extra + 1, pos, stack, _ :: t => run extra (pos + 1) stack t
  | _, pos, [], _ => .ok pos
  | _, _, frame :: _, [] => .error frame.unfinished
  | 0, pos, frame :: below, c :: t =>
    match step pos frame below c t with
    | .ok move => run move.extra (pos + 1) move.stack t
    | .error e => .error e

/-- The length of the comment or string literal at the head of a text, if one stands there. -/
def literalLength? (t : Text) : Scan (Option Nat) :=
  match opening? t with
  | none => .ok none
  | some .lineComment => .ok (some (lineCommentLength t))
  | some .blockComment =>
    match blockCommentLength? 0 t with
    | some n => .ok (some n)
    | none => .error (.unterminatedComment 0)
  | some (.string hashes multiline) =>
    (run (hashes + quoteCount multiline) 0 [.string 0 hashes multiline] t).map some

/-- The length of the bracket group at the head of a text, both brackets included. -/
def groupLength : Text → Scan Nat
  | [] => .error .pastEnd
  | c :: t =>
    match closerOf? c with
    | none => .error (.noOpener c 0)
    | some closer => run 0 1 [.group 0 c [closer]] t

def skipLiteral? (t : Text) (i : Nat) : Scan (Option Nat) :=
  Scan.from i ((literalLength? (t.drop i)).map (Option.map (i + ·)))

/-- The offset of the bracket that closes the one at `i`. -/
def findClosing (t : Text) (i : Nat) : Scan Nat :=
  Scan.from i ((groupLength (t.drop i)).map (i + · - 1))

end PackageInstaller.Manifest
