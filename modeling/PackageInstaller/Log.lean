import PackageInstaller.Text

/-!
Log events, and attempts: what came of a computation together with what it logged on the way, which
stays logged when the computation fails.
-/

namespace PackageInstaller

inductive Level where
  | debug
  | info
  | warning
  | error
  | critical
  deriving DecidableEq, Repr

inductive Field where
  | text (value : Text)
  | texts (value : List Text)
  | count (value : Int)
  | flag (value : Bool)
  deriving DecidableEq

structure Event where
  level : Level
  name : String
  fields : List (String × Field)
  deriving DecidableEq

structure Attempt (ε α : Type) where
  log : List Event
  outcome : Except ε α

namespace Attempt

variable {ε ε' α β : Type}

def ofExcept (outcome : Except ε α) : Attempt ε α := ⟨[], outcome⟩

def fail (e : ε) : Attempt ε α := ⟨[], .error e⟩

def tell (level : Level) (name : String) (fields : List (String × Field)) : Attempt ε Unit :=
  ⟨[⟨level, name, fields⟩], .ok ()⟩

def bind (x : Attempt ε α) (f : α → Attempt ε β) : Attempt ε β :=
  match x.outcome with
  | .ok a => ⟨x.log ++ (f a).log, (f a).outcome⟩
  | .error e => ⟨x.log, .error e⟩

instance : Monad (Attempt ε) where
  pure a := ⟨[], .ok a⟩
  bind := bind

def mapError (f : ε → ε') (x : Attempt ε α) : Attempt ε' α := ⟨x.log, x.outcome.mapError f⟩

@[simp] theorem pure_outcome (a : α) : (pure a : Attempt ε α).outcome = .ok a := rfl

@[simp] theorem fail_outcome (e : ε) : (fail e : Attempt ε α).outcome = .error e := rfl

@[simp] theorem ofExcept_outcome (r : Except ε α) : (ofExcept r).outcome = r := rfl

@[simp] theorem tell_outcome (level : Level) (name : String) (fields : List (String × Field)) :
    (tell level name fields : Attempt ε Unit).outcome = .ok () := rfl

@[simp] theorem mapError_outcome (f : ε → ε') (x : Attempt ε α) :
    (x.mapError f).outcome = x.outcome.mapError f := rfl

theorem bind_outcome (x : Attempt ε α) (f : α → Attempt ε β) :
    (x >>= f).outcome = x.outcome.bind fun a => (f a).outcome := by
  change (bind x f).outcome = _
  unfold bind
  cases h : x.outcome <;> rfl

theorem bind_eq_ok {x : Attempt ε α} {f : α → Attempt ε β} {b : β} :
    (x >>= f).outcome = .ok b ↔ ∃ a, x.outcome = .ok a ∧ (f a).outcome = .ok b := by
  rw [bind_outcome]
  cases h : x.outcome <;> simp [Except.bind]

end Attempt

end PackageInstaller
