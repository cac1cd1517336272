import PackageInstaller.Encoding
import PackageInstaller.Json

/-!
The parts of JSON that hold no other values: strings, numbers and the constants, among them the
three that stand for doubles without digits.
-/

namespace PackageInstaller.Json

inductive Flaw where
  | expectingValue
  | expectingName
  | expectingColon
  | expectingComma
  | controlCharacter
  | unterminated
  | invalidEscape
  | invalidUnicodeEscape
  | extraData
  | byteOrderMark
  | oversized (digits : Nat)
  | tooDeep (container : String)
  deriving DecidableEq, Repr

/-- A flaw and the offset to report it at. -/
structure Flawed where
  flaw : Flaw
  offset : Nat
  deriving DecidableEq, Repr

def hexValue? (c : Char) : Option Nat :=
  if '0' ≤ c ∧ c ≤ '9' then some (c.toNat - 48)
  else if 'a' ≤ c ∧ c ≤ 'f' then some (c.toNat - 87)
  else if 'A' ≤ c ∧ c ≤ 'F' then some (c.toNat - 55)
  else none

def hexUnit? (digits : List Char) : Option Nat :=
  digits.foldlM (fun n c => (hexValue? c).map (16 * n + ·)) 0

def escapes : List (Char × Nat) :=
  [('"', 0x22), ('\\', 0x5C), ('/', 0x2F), ('b', 0x8), ('f', 0xC), ('n', 0xA), ('r', 0xD),
    ('t', 0x9)]

/-- The code units of a string that opened at `start`, read from `pos` on, and the offset after its
closing quote. -/
def stringUnits (start pos : Nat) : Text → Except Flawed (List Nat × Nat)
  | [] => .error ⟨.unterminated, start⟩
  | ['\\'] => .error ⟨.unterminated, start⟩
  | '\\' :: 'u' :: a :: b :: c :: d :: t =>
    match if t.isEmpty then none else hexUnit? [a, b, c, d] with
    | none => .error ⟨.invalidUnicodeEscape, pos + 1⟩
    | some n => (stringUnits start (pos + 6) t).map fun (units, stop) => (n :: units, stop)
  | '\\' :: c :: t =>
    if c = 'u' then .error ⟨.invalidUnicodeEscape, pos + 1⟩
    else
      match escapes.lookup c with
      | none => .error ⟨.invalidEscape, pos⟩
      | some n => (stringUnits start (pos + 2) t).map fun (units, stop) => (n :: units, stop)
  | c :: t =>
    if c = '"' then .ok ([], pos + 1)
    else if c.toNat < 0x20 then .error ⟨.controlCharacter, pos⟩
    else (stringUnits start (pos + 1) t).map fun (units, stop) => (c.toNat :: units, stop)

/-- The string whose opening quote is at `pos` and whose further characters are given, and the
offset after it. It may hold halves of surrogate pairs; `half` says what stands for them. -/
def stringFrom (half : Nat → Char) (pos : Nat) (t : Text) : Except Flawed (Text × Nat) :=
  (stringUnits pos (pos + 1) t).map fun (units, stop) => (Encoding.joinPairs half units, stop)

def isDigit (c : Char) : Bool := '0' ≤ c && c ≤ '9'

def digitRun (t : Text) : Nat := (t.takeWhile isDigit).length

def wholeLength? : Text → Option Nat
  | '0' :: _ => some 1
  | t => if digitRun t = 0 then none else some (digitRun t)

def fractionLength : Text → Nat
  | '.' :: t => if digitRun t = 0 then 0 else digitRun t + 1
  | _ => 0

def exponentLength : Text → Nat
  | e :: t =>
    if e = 'e' ∨ e = 'E' then
      match t with
      | s :: rest =>
        if s = '+' ∨ s = '-' then (if digitRun rest = 0 then 0 else digitRun rest + 2)
        else if digitRun t = 0 then 0 else digitRun t + 1
      | [] => 0
    else 0
  | [] => 0

/-- The lengths of the sign and the whole part at the head of a text, and of what follows them. -/
def numberLengths? (t : Text) : Option (Nat × Nat × Nat) := do
  let sign := if t.head? = some '-' then 1 else 0
  let whole ← wholeLength? (t.drop sign)
  let fraction := fractionLength (t.drop (sign + whole))
  return (sign, whole, fraction + exponentLength (t.drop (sign + whole + fraction)))

/-- Whole numbers are read up to this many digits. -/
def digitLimit : Nat := 4300

def constants : List (Text × Json) :=
  [("null".toList, .null), ("true".toList, .bool true), ("false".toList, .bool false),
    ("NaN".toList, .number "NaN".toList), ("Infinity".toList, .number "Infinity".toList),
    ("-Infinity".toList, .number "-Infinity".toList)]

def numberFrom (pos : Nat) (t : Text) : Except Flawed (Json × Nat) :=
  match numberLengths? t with
  | none => .error ⟨.expectingValue, pos⟩
  | some (sign, whole, rest) =>
    if rest = 0 ∧ digitLimit < whole then .error ⟨.oversized whole, pos⟩
    else .ok (.number (t.take (sign + whole + rest)), pos + sign + whole + rest)

/-- The scalar at `pos`, where the text given begins, and the offset after it. -/
def scalarFrom (half : Nat → Char) (pos : Nat) (t : Text) : Except Flawed (Json × Nat) :=
  match t with
  | '"' :: rest => (stringFrom half pos rest).map fun (value, stop) => (.string value, stop)
  | _ =>
    match constants.find? fun (word, _) => word.isPrefixOf t with
    | some (word, value) => .ok (value, pos + word.length)
    | none => numberFrom pos t

end PackageInstaller.Json
