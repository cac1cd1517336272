import PackageInstaller.Text

/-!
The characters of a regular expression, each with the backslash that may stand before it, and what an
escaped character stands for. Some escapes go on with digits or with a name in braces.
-/

namespace PackageInstaller.Regex

inductive Token where
  | plain (c : Char)
  | escaped (c : Char)
  deriving DecidableEq, Repr

/-- The tokens of a source. A backslash at its very end escapes nothing. -/
def tokens? : Text → Option (List Token)
  | [] => some []
  | '\\' :: c :: t => (tokens? t).map (.escaped c :: ·)
  | c :: t => if c = '\\' then none else (tokens? t).map (.plain c :: ·)

/-- The unescaped characters of a kind at the head of a source, as many as `most` of them. -/
def plainRun (p : Char → Bool) : Nat → List Token → Text
  | most + 1, .plain c :: t => if p c then c :: plainRun p most t else []
  | _, _ => []

/-- What stands before an unescaped character, when that character is there. -/
def upTo? (stop : Char) : List Token → Option (List Token)
  | [] => none
  | token :: t => if token = .plain stop then some [] else (upTo? stop t).map (token :: ·)

inductive Meaning where
  | character (code : Option Nat)
  | category
  | anchor
  | reference (group : Nat)
  deriving DecidableEq, Repr

/-- A meaning, and how many further tokens belong to the escape. The code of a character that is
given by name is left open. -/
structure Escape where
  meaning : Meaning
  extra : Nat
  deriving DecidableEq, Repr

def isOctal (c : Char) : Bool := '0' ≤ c && c ≤ '7'

def hexValue (c : Char) : Nat :=
  if c.isDigit then c.toNat - 48 else c.toLower.toNat - 87

def isHex (c : Char) : Bool := c.isDigit || ('a' ≤ c.toLower && c.toLower ≤ 'f')

def octalCode (digits : Text) : Nat := digits.foldl (fun n c => 8 * n + (c.toNat - 48)) 0

def hexCode (digits : Text) : Nat := digits.foldl (fun n c => 16 * n + hexValue c) 0

/-- A character given by exactly `width` hexadecimal digits. -/
def hex? (width : Nat) (t : List Token) : Option Escape :=
  let digits := plainRun isHex width t
  if digits.length = width ∧ hexCode digits < 0x110000 then
    some ⟨.character (hexCode digits), width⟩
  else none

/-- The names of characters are written with these. -/
def isNamePart (c : Char) : Bool := c.isAlphanum || c = ' ' || c = '-'

def named? : List Token → Option Escape
  | .plain '{' :: t => do
    let name ← upTo? '}' t
    let word := plainRun isNamePart name.length name
    if word.isEmpty || word.length < name.length then none
    else some ⟨.character none, name.length + 2⟩
  | _ => none

/-- A character given by octal digits, of which `digits` are all. -/
def octal? (digits : Text) : Option Escape :=
  if octalCode digits < 0x100 then some ⟨.character (octalCode digits), digits.length - 1⟩ else none

def controlCodes : List (Char × Nat) :=
  [('a', 0x7), ('f', 0xC), ('n', 0xA), ('r', 0xD), ('t', 0x9), ('v', 0xB)]

def isCategory (c : Char) : Bool := ['d', 'D', 's', 'S', 'w', 'W'].elem c

def isAnchor (c : Char) : Bool := ['A', 'b', 'B', 'Z'].elem c

/-- The escapes that mean the same in a character set and outside: a letter that has no meaning may
not be escaped, anything else stands for itself. -/
def common? (c : Char) (t : List Token) : Option Escape :=
  if isCategory c then some ⟨.category, 0⟩
  else if c = 'x' then hex? 2 t
  else if c = 'u' then hex? 4 t
  else if c = 'U' then hex? 8 t
  else if c = 'N' then named? t
  else
    match controlCodes.lookup c with
    | some code => some ⟨.character code, 0⟩
    | none => if c.isAlpha then none else some ⟨.character c.toNat, 0⟩

def escapeInSet? (c : Char) (t : List Token) : Option Escape :=
  if c = 'b' then some ⟨.character (some 0x8), 0⟩
  else if isOctal c then octal? (c :: plainRun isOctal 2 t)
  else if c.isDigit then none
  else common? c t

/-- Outside a set, digits name a group, unless they begin with a zero or are three octal ones. -/
def escape? (c : Char) (t : List Token) : Option Escape :=
  if isAnchor c then some ⟨.anchor, 0⟩
  else if c = '0' then octal? (c :: plainRun isOctal 2 t)
  else if c.isDigit then
    let octals := c :: plainRun isOctal 2 t
    if isOctal c ∧ octals.length = 3 then octal? octals
    else
      let digits := c :: plainRun Char.isDigit 1 t
      some ⟨.reference (digits.foldl (fun n d => 10 * n + (d.toNat - 48)) 0), digits.length - 1⟩
  else common? c t

end PackageInstaller.Regex
