import PackageInstaller.Text.Lowercase

/-!
Asking for which targets a package is wanted. One target is not asked about; of several, each is
asked about in turn until there is a clear answer.
-/

namespace PackageInstaller

inductive Answer where
  | yes
  | no
  | quit
  | unclear
  deriving DecidableEq, Repr

def Answer.ofText (reply : Text) : Answer :=
  match Text.lower (Text.strip reply) with
  | ['y'] => .yes
  | ['n'] => .no
  | ['q'] => .quit
  | _ => .unclear

namespace Selection

inductive Remark where
  | question (target : Text)
  | reply (text : Text)
  | help
  deriving DecidableEq, Repr

/-- What was said, how many replies were used, and the targets accepted, unless replies ran out. -/
structure Inquiry where
  dialogue : List Remark
  used : Nat
  accepted : Option (List Text)
  deriving DecidableEq, Repr

def Inquiry.after (said : List Remark) (accepted : List Text) (i : Inquiry) : Inquiry :=
  ⟨said ++ i.dialogue, i.used + 1, i.accepted.map (accepted ++ ·)⟩

/-- Asks about the targets that are left, with the replies that are still to come. -/
def ask : List Text → List Text → Inquiry
  | [], _ => ⟨[], 0, some []⟩
  | target :: _, [] => ⟨[.question target], 0, none⟩
  | target :: rest, reply :: replies =>
    let said := [.question target, .reply reply]
    match Answer.ofText reply with
    | .yes => (ask rest replies).after said [target]
    | .no => (ask rest replies).after said []
    | .quit => ⟨said, 1, some []⟩
    | .unclear => (ask (target :: rest) replies).after (said ++ [.help]) []

def inquire (targets replies : List Text) : Inquiry :=
  if targets.length ≤ 1 then ⟨[], 0, some targets⟩ else ask targets replies

def questionText (target : Text) : Text :=
  "Would you like to add the package to the target '".toList ++ target ++ "'? (y,n,q,?)".toList

def helpLines : List Text :=
  ["y: Add the package as a dependency to the target.".toList,
    "n: Do not add the package as a dependency to the target.".toList,
    "q: Do not add the package as a dependency to the current target or any of the following targets.".toList,
    "?: Output this message.".toList]

end Selection

end PackageInstaller
