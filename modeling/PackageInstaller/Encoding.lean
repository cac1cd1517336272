import PackageInstaller.Text

/-!
Texts as bytes. A decoder stops at the first bytes that no character has for its form and says which
they are and what is wrong with them. Half of a surrogate pair is no character and has no form, so a
text that holds one cannot be encoded.
-/

namespace PackageInstaller

abbrev Bytes := List UInt8

inductive Encoding where
  | utf8
  | utf16 (bigEndian : Bool)
  | utf32 (bigEndian : Bool)
  deriving DecidableEq, Repr

inductive DecodingFault where
  | invalidStart
  | invalidContinuation
  | unexpectedEnd
  | truncated
  | outOfRange
  deriving DecidableEq, Repr

structure DecodingError where
  encoding : Encoding
  start : Nat
  found : Bytes
  fault : DecodingFault
  deriving DecidableEq, Repr

namespace DecodingError

def order (bigEndian : Bool) : String := if bigEndian then "be" else "le"

def encodingName : Encoding → String
  | .utf8 => "utf-8"
  | .utf16 bigEndian => "utf-16-" ++ order bigEndian
  | .utf32 bigEndian => "utf-32-" ++ order bigEndian

def reason : DecodingFault → String
  | .invalidStart => "invalid start byte"
  | .invalidContinuation => "invalid continuation byte"
  | .unexpectedEnd => "unexpected end of data"
  | .truncated => "truncated data"
  | .outOfRange => "code point not in range(0x110000)"

def hexByte (b : UInt8) : String :=
  String.ofList [(b.toNat / 16).digitChar, (b.toNat % 16).digitChar]

def location (start : Nat) : Bytes → String
  | [b] => s!"byte 0x{hexByte b} in position {start}"
  | found => s!"bytes in position {start}-{start + found.length - 1}"

def message (e : DecodingError) : String :=
  s!"'{encodingName e.encoding}' codec can't decode {location e.start e.found}: {reason e.fault}"

end DecodingError

namespace Encoding

def replacement : Char := '\uFFFD'

/-- A private character to stand for half of a surrogate pair. -/
def ofHalf (n : Nat) : Char := Char.ofNat (0xF0000 + n)

def halfOf (c : Char) : Nat := c.toNat - 0xF0000

/-- The character of a code point. Half of a surrogate pair has none; `half` says what stands for it. -/
def charOf (half : Nat → Char) (n : Nat) : Char := if n.isValidChar then Char.ofNat n else half n

def isHighSurrogate (n : Nat) : Bool := 0xD800 ≤ n && n < 0xDC00

def isLowSurrogate (n : Nat) : Bool := 0xDC00 ≤ n && n < 0xE000

def pairValue (high low : Nat) : Nat := 0x10000 + (high - 0xD800) * 0x400 + (low - 0xDC00)

/-- The text of a list of code units, with each surrogate pair joined. -/
def joinPairs (half : Nat → Char) : List Nat → Text
  | [] => []
  | [n] => [charOf half n]
  | high :: low :: rest =>
    if isHighSurrogate high && isLowSurrogate low then
      charOf half (pairValue high low) :: joinPairs half rest
    else charOf half high :: joinPairs half (low :: rest)

end Encoding

/-- The first halves of surrogate pairs in a text, and where they are. -/
structure EncodingError where
  start : Nat
  halves : List Nat
  deriving DecidableEq, Repr

namespace EncodingError

def location (start : Nat) : List Nat → String
  | [n] => "character '\\u" ++ String.ofList (Nat.toDigits 16 n) ++ s!"' in position {start}"
  | halves => s!"characters in position {start}-{start + halves.length - 1}"

def message (e : EncodingError) : String :=
  s!"'utf-8' codec can't encode {location e.start e.halves}: surrogates not allowed"

end EncodingError

namespace Encoding

/-- The characters that stand for halves of surrogate pairs in a text, which is read once more with
others for them. -/
def halvesIn (t other : Text) : List Char := ((t.zip other).filter fun (c, d) => c ≠ d).map (·.1)

/-- Why a text has no bytes, when the given characters stand for halves of surrogate pairs in it. -/
def unencodable? (halves : List Char) (t : Text) : Option EncodingError :=
  let before := t.takeWhile (!halves.elem ·)
  let found := (t.drop before.length).takeWhile halves.elem
  if found.isEmpty then none else some ⟨before.length, found.map halfOf⟩

end Encoding

end PackageInstaller
