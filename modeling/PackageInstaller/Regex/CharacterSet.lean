import PackageInstaller.Regex.Escape

/-!
Character sets: single characters, classes of them, and ranges between two characters, of which the
first may not come after the second. A closing bracket that comes first stands for itself.
-/

namespace PackageInstaller.Regex

/-- Where in a set the reader is: before a member, after one that a range may begin with, or in a
range after its dash. -/
inductive SetState where
  | member (first : Bool)
  | after (last : Meaning)
  | range (low : Meaning)

def isRange : Meaning → Meaning → Bool
  | .character (some low), .character (some high) => low ≤ high
  | .character _, .character _ => true
  | _, _ => false

def memberOf? (token : Token) (t : List Token) : Option Escape :=
  match token with
  | .plain c => some ⟨.character c.toNat, 0⟩
  | .escaped c => escapeInSet? c t

/-- The state after a member, and how many further tokens the member has. -/
def memberStep? (state : SetState) (token : Token) (t : List Token) : Option (SetState × Nat) :=
  match memberOf? token t, state with
  | none, _ => none
  | some found, .range low =>
    if isRange low found.meaning then some (.member false, found.extra) else none
  | some found, _ => some (.after found.meaning, found.extra)

def closes (state : SetState) (token : Token) : Bool :=
  match state with
  | .member true => false
  | _ => token = .plain ']'

/-- The number of tokens up to the bracket that closes the set, that one included. -/
def setLengthFrom? (state : SetState) : Nat → List Token → Option Nat
  | _, [] => none
  | skip + 1, _ :: t => (setLengthFrom? state skip t).map (· + 1)
  | 0, token :: t =>
    if closes state token then some 1
    else
      match state, token with
      | .after last, .plain '-' => (setLengthFrom? (.range last) 0 t).map (· + 1)
      | _, _ =>
        match memberStep? state token t with
        | some (next, extra) => (setLengthFrom? next extra t).map (· + 1)
        | none => none

/-- The length of a set whose opening bracket has been read. -/
def setLength? : List Token → Option Nat
  | .plain '^' :: t => (setLengthFrom? (.member true) 0 t).map (· + 1)
  | t => setLengthFrom? (.member true) 0 t

end PackageInstaller.Regex
