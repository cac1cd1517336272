import PackageInstaller.Encoding

/-!
UTF-8. The first byte of a character says how many bytes follow and, so that each character has one
form only, between which bounds the next of them lies.
-/

namespace PackageInstaller.Encoding

structure Lead where
  rest : Nat
  low : UInt8
  high : UInt8
  value : Nat

def lead? (b : UInt8) : Option Lead :=
  if 0xC2 ≤ b ∧ b ≤ 0xDF then some ⟨1, 0x80, 0xBF, b.toNat - 0xC0⟩
  else if 0xE0 ≤ b ∧ b ≤ 0xEF then
    some ⟨2, if b = 0xE0 then 0xA0 else 0x80, if b = 0xED then 0x9F else 0xBF, b.toNat - 0xE0⟩
  else if 0xF0 ≤ b ∧ b ≤ 0xF4 then
    some ⟨3, if b = 0xF0 then 0x90 else 0x80, if b = 0xF4 then 0x8F else 0xBF, b.toNat - 0xF0⟩
  else none

/-- The value of a character whose next `rest` bytes are at the head of the list, the first of them
between `low` and `high`; or how many of them are as they should be, and what is wrong then. -/
def continuation (low high : UInt8) (value : Nat) : Nat → Bytes → Except (Nat × DecodingFault) Nat
  | 0, _ => .ok value
  | _ + 1, [] => .error (0, .unexpectedEnd)
  | rest + 1, b :: t =>
    if b < low ∨ high < b then .error (0, .invalidContinuation)
    else
      (continuation 0x80 0xBF (64 * value + (b.toNat - 0x80)) rest t).mapError fun (n, fault) =>
        (n + 1, fault)

/-- The half of a surrogate pair at the head of a list of bytes, if one is there in the form that a
character of its value would have. -/
def half? : Bytes → Option Nat
  | a :: b :: c :: _ =>
    if a = 0xED ∧ 0xA0 ≤ b ∧ b ≤ 0xBF ∧ 0x80 ≤ c ∧ c ≤ 0xBF then
      some (0xD000 + 64 * (b.toNat - 0x80) + (c.toNat - 0x80))
    else none
  | _ => none

/-- The code point at the head of a list of bytes and the number of bytes after the first. -/
def headPoint (halves : Bool) (a : UInt8) (t : Bytes) : Except (Nat × DecodingFault) (Nat × Nat) :=
  if a < 0x80 then .ok (a.toNat, 0)
  else
    match lead? a with
    | none => .error (1, .invalidStart)
    | some lead =>
      match continuation lead.low lead.high lead.value lead.rest t with
      | .ok value => .ok (value, lead.rest)
      | .error (n, fault) =>
        match if halves then half? (a :: t) else none with
        | some value => .ok (value, 2)
        | none => .error (n + 1, fault)

/-- Reads the bytes from position `pos` on, after skipping `skip` of them. With `halves`, the forms
of surrogates are let pass. -/
def utf8From (halves : Bool) : Nat → Nat → Bytes → Except DecodingError Text
  | _, _, [] => .ok []
  | skip + 1, pos, _ :: t => utf8From halves skip (pos + 1) t
  | 0, pos, a :: t =>
    match headPoint halves a t with
    | .ok (value, n) => (utf8From halves n (pos + 1) t).map (charOf ofHalf value :: ·)
    | .error (n, fault) => .error ⟨.utf8, pos, (a :: t).take n, fault⟩

def decodeUtf8 (bytes : Bytes) : Except DecodingError Text := utf8From false 0 0 bytes

def encodeChar (c : Char) : Bytes :=
  let n := c.toNat
  let last := n % 64
  let third := n / 0x40 % 64
  let second := n / 0x1000 % 64
  if n < 0x80 then [n.toUInt8]
  else if n < 0x800 then [(0xC0 + n / 0x40).toUInt8, (0x80 + last).toUInt8]
  else if n < 0x10000 then
    [(0xE0 + n / 0x1000).toUInt8, (0x80 + third).toUInt8, (0x80 + last).toUInt8]
  else
    [(0xF0 + n / 0x40000).toUInt8, (0x80 + second).toUInt8, (0x80 + third).toUInt8,
      (0x80 + last).toUInt8]

def encodeUtf8 (t : Text) : Bytes := t.flatMap encodeChar

end PackageInstaller.Encoding
