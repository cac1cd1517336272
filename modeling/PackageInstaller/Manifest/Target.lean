import PackageInstaller.Log
import PackageInstaller.Manifest.PackageCall

/-!
The targets that a manifest declares. A target named among the dependencies of another one is not a
declaration, and of two declarations with one name the first counts.
-/

namespace PackageInstaller.Manifest

structure Target where
  name : Text
  kind : Text
  span : Span
  deriving DecidableEq, Repr

inductive Naming where
  | named (name : Text)
  | nameless
  | notLiteral
  deriving DecidableEq

/-- How the call in `span` names its target. -/
def namingOf (t : Text) (span : Span) : Scan Naming := do
  match (← targetArguments? t span).bind (·.find? nameLabel) with
  | none => return .nameless
  | some item =>
    match StringLiteral.valueAt? t item.value with
    | none => return .notLiteral
    | some name => return .named name

def offsetField (span : Span) : String × Field := ("offset", .count span.start)

/-- The targets among the occurrences left, when the last declaration ended at `outerStop` and the
names in `seen` are taken. -/
def locateFrom (t : Text) (outerStop : Nat) (seen : List Text) :
    List Occurrence → Attempt ScanError (List Target)
  | [] => pure []
  | o :: rest => do
    let span ← Attempt.ofExcept (callSpan t o)
    if o.span.start < outerStop then locateFrom t outerStop seen rest
    else
      match ← Attempt.ofExcept (namingOf t span) with
      | .nameless =>
        Attempt.tell .debug "manifest.target_without_name" [offsetField span]
        locateFrom t outerStop seen rest
      | .notLiteral =>
        Attempt.tell .debug "manifest.target_name_not_literal" [offsetField span]
        locateFrom t outerStop seen rest
      | .named name =>
        if seen.elem name then
          Attempt.tell .warning "manifest.duplicate_target" [("target", .text name), offsetField span]
          locateFrom t span.stop seen rest
        else
          let later ← locateFrom t span.stop (name :: seen) rest
          return ⟨name, o.capture.getD [], span⟩ :: later

/-- The declared targets in the order of the text. -/
def locateTargets (t : Text) : Attempt ScanError (List Target) := do
  let found ← Attempt.ofExcept (Anchor.targetDeclaration.codeOccurrences t 0 t.length)
  locateFrom t 0 [] found

end PackageInstaller.Manifest
