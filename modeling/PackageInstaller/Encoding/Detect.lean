import PackageInstaller.Encoding.Utf8

/-!
Bytes whose encoding is not told. A byte order mark settles it, and without one the zeros among the
first bytes do, since the text is known to begin with ASCII characters.
-/

namespace PackageInstaller.Encoding

def unitValue (bigEndian : Bool) (bytes : Bytes) : Nat :=
  (if bigEndian then bytes else bytes.reverse).foldl (fun n b => 256 * n + b.toNat) 0

def units16 (bigEndian : Bool) (pos : Nat) : Bytes → Except DecodingError (List Nat)
  | [] => .ok []
  | a :: b :: t => (units16 bigEndian (pos + 2) t).map (unitValue bigEndian [a, b] :: ·)
  | found => .error ⟨.utf16 bigEndian, pos, found, .truncated⟩

def decodeUtf16 (bigEndian : Bool) (pos : Nat) (bytes : Bytes) : Except DecodingError Text :=
  (units16 bigEndian pos bytes).map (joinPairs ofHalf)

def decodeUtf32 (bigEndian : Bool) (pos : Nat) : Bytes → Except DecodingError Text
  | [] => .ok []
  | a :: b :: c :: d :: t =>
    let value := unitValue bigEndian [a, b, c, d]
    if value < 0x110000 then (decodeUtf32 bigEndian (pos + 4) t).map (charOf ofHalf value :: ·)
    else .error ⟨.utf32 bigEndian, pos, [a, b, c, d], .outOfRange⟩
  | found => .error ⟨.utf32 bigEndian, pos, found, .truncated⟩

def ofZeros : Bytes → Encoding
  | a :: b :: c :: d :: _ =>
    if a = 0 then (if b = 0 then .utf32 true else .utf16 true)
    else if b = 0 then (if c = 0 ∧ d = 0 then .utf32 false else .utf16 false)
    else .utf8
  | [a, b] => if a = 0 then .utf16 true else if b = 0 then .utf16 false else .utf8
  | _ => .utf8

def decodeAs (encoding : Encoding) (pos : Nat) (bytes : Bytes) : Except DecodingError Text :=
  match encoding with
  | .utf8 => utf8From true 0 pos bytes
  | .utf16 bigEndian => decodeUtf16 bigEndian pos bytes
  | .utf32 bigEndian => decodeUtf32 bigEndian pos bytes

/-- Positions count from the start of the bytes, except that a mark before UTF-8 is not counted. -/
def decodeDetected : Bytes → Except DecodingError Text
  | 0x00 :: 0x00 :: 0xFE :: 0xFF :: t => decodeAs (.utf32 true) 4 t
  | 0xFF :: 0xFE :: 0x00 :: 0x00 :: t => decodeAs (.utf32 false) 4 t
  | 0xFE :: 0xFF :: t => decodeAs (.utf16 true) 2 t
  | 0xFF :: 0xFE :: t => decodeAs (.utf16 false) 2 t
  | 0xEF :: 0xBB :: 0xBF :: t => decodeAs .utf8 0 t
  | bytes => decodeAs (ofZeros bytes) 0 bytes

end PackageInstaller.Encoding
