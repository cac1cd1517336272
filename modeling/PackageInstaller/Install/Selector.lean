import PackageInstaller.Install.Host
import PackageInstaller.Selection

/-!
Ways to select targets: by asking the user, or without asking.
-/

namespace PackageInstaller

abbrev Selector := List Text → Action (List Text)

namespace Selection

def shown : Remark → List Printed
  | .question target => [⟨.output, Text.plain (questionText target) ++ [':', ' ']⟩]
  | .reply text => [⟨.output, text ++ ['\n']⟩]
  | .help => helpLines.map fun line => ⟨.output, line ++ ['\n']⟩

/-- Asks on the host; when its user has nothing more to say, the installation is broken off. -/
def interactive : Selector := fun targets h =>
  let inquiry := inquire targets h.replies
  let after := { h with
    printed := h.printed ++ inquiry.dialogue.flatMap shown
    replies := h.replies.drop inquiry.used }
  match inquiry.accepted with
  | some accepted => (.ok accepted, after)
  | none => (.error .aborted, after)

def fixed (targets : List Text) : Selector := fun _ => pure targets

end Selection

end PackageInstaller
