import PackageInstaller.Manifest.Span
import PackageInstaller.Text

/-!
Quoted string literals with backslash escapes: writing one, and reading one back.
-/

namespace PackageInstaller.Manifest.StringLiteral

def encodeChar (c : Char) : Text := if c = '\\' ∨ c = '"' then ['\\', c] else [c]

def encode (value : Text) : Text := '"' :: value.flatMap encodeChar ++ ['"']

/-- The value of what follows the opening quote, when the closing quote comes last. An escaped
character stands for itself. -/
def decodeBody? : Text → Option Text
  | [] => none
  | '\\' :: c :: t => if c = '\n' then none else (decodeBody? t).map (c :: ·)
  | ['"'] => some []
  | c :: t => if c = '"' ∨ c = '\\' ∨ c = '\n' then none else (decodeBody? t).map (c :: ·)

def decode? : Text → Option Text
  | '"' :: t => decodeBody? t
  | _ => none

/-- The value of the literal that fills the span, if exactly one does. -/
def valueAt? (t : Text) (span : Span) : Option Text := decode? (t.slice span.start span.stop)

/-- The length of the body at the head of a text and its closing quote. -/
def bodyLength? : Text → Option Nat
  | [] => none
  | '\\' :: c :: t => if c = '\n' then none else (bodyLength? t).map (· + 2)
  | c :: t =>
    if c = '"' then some 1
    else if c = '\\' ∨ c = '\n' then none
    else (bodyLength? t).map (· + 1)

end PackageInstaller.Manifest.StringLiteral
