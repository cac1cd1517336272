import PackageInstaller.Regex.CharacterSet
import PackageInstaller.Regex.State

/-!
Regular expressions: whether a source is well formed, and the names of its groups. The reader goes
through the tokens once.
-/

namespace PackageInstaller.Regex

/-- Why a source is refused. -/
inductive Flaw where
  | malformed
  | countTooLarge
  deriving DecidableEq, Repr

namespace Flaw

def message : Flaw → String
  | .malformed => "malformed"
  | .countTooLarge => "the repetition number is too large"

def expect {α : Type} : Option α → Except Flaw α
  | some a => .ok a
  | none => .error .malformed

end Flaw

/-- The state after a token, and how many further tokens belong to it. -/
structure Move where
  extra : Nat
  state : State

/-- A quantifier may be followed by the mark of a lazy or of a possessive one. -/
def quantify? (s : State) (q : Quantifier) (t : List Token) : Option Move :=
  let marked := match t.drop q.length with
    | .plain c :: _ => c = '?' || c = '+'
    | _ => false
  (s.repeat? q).map fun s => ⟨if marked then q.length + 1 else q.length, s⟩

/-- The least count that is too large. -/
def countLimit : Nat := 0xFFFFFFFF

def count? (digits : Text) : Option Nat :=
  if digits.isEmpty then none else some (digits.foldl (fun n d => 10 * n + (d.toNat - 48)) 0)

/-- The repetition count whose opening brace has been read; none when the braces hold something
else, which then is plain text. -/
def counted? (t : List Token) : Option Quantifier :=
  let low := plainRun Char.isDigit t.length t
  match t.drop low.length with
  | .plain '}' :: _ => (count? low).map fun n => ⟨n, some n, low.length + 1⟩
  | .plain ',' :: rest =>
    let high := plainRun Char.isDigit rest.length rest
    match rest.drop high.length with
    | .plain '}' :: _ => some ⟨(count? low).getD 0, count? high, low.length + high.length + 2⟩
    | _ => none
  | _ => none

def checkCounts (q : Quantifier) : Except Flaw Unit :=
  if countLimit ≤ q.least || q.most.any (countLimit ≤ ·) then .error .countTooLarge
  else if q.most.any (· < q.least) then .error .malformed
  else .ok ()

def brace (s : State) (t : List Token) : Except Flaw Move :=
  match counted? t with
  | none => .ok ⟨0, s.character⟩
  | some q => do
    checkCounts q
    Flaw.expect (quantify? s q t)

def plainStep? (s : State) (c : Char) (t : List Token) : Option Move :=
  match c with
  | '|' => s.alternative?.map (⟨0, ·⟩)
  | ')' => s.close?.map (⟨0, ·⟩)
  | '(' => (opening? t).bind fun (opening, extra) => (s.open? opening).map (⟨extra, ·⟩)
  | '[' => (setLength? t).map (⟨·, s.character⟩)
  | '^' => some ⟨0, s.anchor⟩
  | '$' => some ⟨0, s.anchor⟩
  | '*' => quantify? s ⟨0, none, 0⟩ t
  | '+' => quantify? s ⟨1, none, 0⟩ t
  | '?' => quantify? s ⟨0, some 1, 0⟩ t
  | _ => some ⟨0, s.character⟩

def escapedStep? (s : State) (c : Char) (t : List Token) : Option Move := do
  let found ← escape? c t
  match found.meaning with
  | .anchor => return ⟨found.extra, s.anchor⟩
  | .reference group => return ⟨found.extra, ← s.refersTo? group⟩
  | _ => return ⟨found.extra, s.character⟩

def isBlank (c : Char) : Bool := [' ', '\t', '\n', '\r', '\x0B', '\x0C'].elem c

def step (s : State) (token : Token) (t : List Token) : Except Flaw Move :=
  match token with
  | .escaped c => Flaw.expect (escapedStep? s c t)
  | .plain c =>
    if s.verbose && isBlank c then .ok ⟨0, s⟩
    else if s.verbose && c = '#' then .ok ⟨(t.takeWhile (· ≠ .plain '\n')).length, s⟩
    else if c = '{' then brace s t
    else Flaw.expect (plainStep? s c t)

/-- Steps through the tokens after skipping `extra` of them. -/
def run : Nat → State → List Token → Except Flaw State
  | _, s, [] => .ok s
  | extra + 1, s, _ :: t => run extra s t
  | 0, s, token :: t =>
    match step s token t with
    | .ok move => run move.extra move.state t
    | .error flaw => .error flaw

/-- The names of the groups of a well-formed source. -/
def groupNames (source : Text) : Except Flaw (List Text) := do
  let tokens ← Flaw.expect (tokens? source)
  let s ← run 0 .start tokens
  if s.isComplete then .ok (s.names.map (·.1)) else .error .malformed

end PackageInstaller.Regex
