import PackageInstaller.Text.Quoted

/-!
What can be wrong with a source text. Offsets count from the start of the text that was scanned;
`shift` restates an error for a text in which that one begins further on.
-/

namespace PackageInstaller.Manifest

inductive ScanError where
  | unterminatedComment (offset : Nat)
  | unterminatedString (offset : Nat)
  | mismatched (found : Char) (offset : Nat)
  | unbalanced (opener : Char) (offset : Nat)
  | emptyElement (offset : Nat)
  | noOpener (found : Char) (offset : Nat)
  | pastEnd
  | noItem
  deriving DecidableEq, Repr

namespace ScanError

def shift (d : Nat) : ScanError → ScanError
  | .unterminatedComment offset => .unterminatedComment (d + offset)
  | .unterminatedString offset => .unterminatedString (d + offset)
  | .mismatched found offset => .mismatched found (d + offset)
  | .unbalanced opener offset => .unbalanced opener (d + offset)
  | .emptyElement offset => .emptyElement (d + offset)
  | .noOpener found offset => .noOpener found (d + offset)
  | .pastEnd => .pastEnd
  | .noItem => .noItem

/-- Faults of the text itself; the others are faults of the offset or the index asked about. -/
def isStructural : ScanError → Bool
  | .noOpener _ _ => false
  | .pastEnd => false
  | .noItem => false
  | _ => true

def quotedChar (c : Char) : String := String.ofList (Text.quoted [c])

def message : ScanError → String
  | .unterminatedComment offset => s!"unterminated block comment at offset {offset}"
  | .unterminatedString offset => s!"unterminated string literal at offset {offset}"
  | .mismatched found offset => s!"mismatched {quotedChar found} at offset {offset}"
  | .unbalanced opener offset => s!"unbalanced {quotedChar opener} at offset {offset}"
  | .emptyElement offset => s!"empty element before ',' at offset {offset}"
  | .noOpener found offset => s!"no opening delimiter at offset {offset}: {quotedChar found}"
  | .pastEnd => "string index out of range"
  | .noItem => "tuple index out of range"

end ScanError

abbrev Scan := Except ScanError

/-- The outcome of scanning from `offset` on, told in offsets of the whole text. -/
def Scan.from {α : Type} (offset : Nat) (r : Scan α) : Scan α := r.mapError (·.shift offset)

end PackageInstaller.Manifest
