import PackageInstaller.Regex.Opening
import PackageInstaller.Regex.Width

/-!
What has to be known of a regular expression between two of its tokens: the groups that are open,
innermost first, and what has been read of each.
-/

namespace PackageInstaller.Regex

/-- What a quantifier would repeat. Places cannot be repeated, nor can what is repeated already. -/
inductive Last where
  | nothing
  | anchor
  | repeated
  | single
  deriving DecidableEq, Repr

inductive GroupKind where
  | plain
  | capture (number : Nat)
  | lookAhead
  | lookBehind
  | condition (isSecond : Bool)
  deriving DecidableEq, Repr

/-- A group that is open, and what goes on in the text around it once it is closed. -/
structure OpenGroup where
  kind : GroupKind
  verbose : Bool
  behind : Option Nat
  extent : Extent
  deriving DecidableEq, Repr

namespace OpenGroup

/-- The width of a group as an item of the text around it. A condition with one alternative may
match nothing, and what is looked at is not matched. -/
def width (group : OpenGroup) (inside : Width) : Width :=
  match group.kind with
  | .lookAhead => .exactly 0
  | .lookBehind => .exactly 0
  | .condition false => inside.join (.exactly 0)
  | _ => inside

def allows (group : OpenGroup) (inside : Width) : Bool :=
  match group.kind with
  | .lookBehind => inside.isWithinReach
  | _ => true

end OpenGroup

/-- In verbose text blanks and comments mean nothing. In single text, which the flag `t` asks for,
nothing is repeated. Within a look-behind, `behind` is the number of groups that were opened before
it. `closed` has the groups that are complete, with their widths, and `awaited` those that conditions
name by number. Once `fits` is false the source is refused, though it is read to its end. -/
structure State where
  stack : List OpenGroup
  last : Last
  atStart : Bool
  verbose : Bool
  single : Bool
  behind : Option Nat
  extent : Extent
  count : Nat
  closed : List (Nat × Width)
  names : List (Text × Nat)
  awaited : List Nat
  fits : Bool
  deriving DecidableEq, Repr

/-- How often something is repeated, and the number of further tokens that say so. -/
structure Quantifier where
  least : Nat
  most : Option Nat
  length : Nat
  deriving DecidableEq, Repr

namespace State

def start : State := ⟨[], .nothing, true, false, false, none, .start, 0, [], [], [], true⟩

def item (s : State) (last : Last) (w : Width) : State :=
  { s with last := last, atStart := false, extent := s.extent.item w }

def anchor (s : State) : State := s.item .anchor (.exactly 0)

def character (s : State) : State := s.item .single (.exactly 1)

/-- Inside a look-behind only the groups before it can be told. -/
def canTell (s : State) (group : Nat) : Bool :=
  s.behind.all fun limit => group ≤ limit && (s.closed.lookup group).isSome

def refersTo? (s : State) (group : Nat) : Option State :=
  (s.closed.lookup group).bind fun w => if s.canTell group then some (s.item .single w) else none

def enter (s : State) (kind : GroupKind) (verbose : Bool) (behind : Option Nat) : State :=
  { s with
    stack := ⟨kind, s.verbose, s.behind, s.extent⟩ :: s.stack
    last := .nothing
    atStart := false
    verbose := verbose
    behind := behind
    extent := .start }

def capture? (s : State) (name : Option Text) : Option State :=
  let number := s.count + 1
  let inside := { s.enter (.capture number) s.verbose s.behind with count := number }
  match name with
  | none => some inside
  | some name =>
    if (s.names.lookup name).isSome then none
    else some { inside with names := (name, number) :: s.names }

def condition? (s : State) (on : Condition) : Option State :=
  let inside := s.enter (.condition false) s.verbose s.behind
  match on with
  | .named name =>
    (s.names.lookup name).bind fun group => if s.canTell group then some inside else none
  | .numbered group =>
    if group ≠ 0 && s.canTell group then some { inside with awaited := group :: s.awaited }
    else none

/-- Flags for the whole source have to stand at its start. -/
def setFlags? (s : State) (flags : Flags) : Option State :=
  if s.atStart then
    some { s with
      verbose := s.verbose || flags.on.elem 'x'
      single := s.single || flags.on.elem 't' }
  else none

def open? (s : State) : Opening → Option State
  | .capture name => s.capture? name
  | .group flags =>
    some (s.enter .plain ((s.verbose || flags.on.elem 'x') && !flags.off.elem 'x') s.behind)
  | .lookAhead => some (s.enter .lookAhead s.verbose s.behind)
  | .lookBehind => some (s.enter .lookBehind s.verbose (s.behind.or (some s.count)))
  | .condition on => s.condition? on
  | .reference name => (s.names.lookup name).bind s.refersTo?
  | .flags flags => s.setFlags? flags
  | .comment => some s

def close? (s : State) : Option State :=
  match s.stack with
  | [] => none
  | group :: below =>
    let inside := s.extent.total
    let closed := match group.kind with
      | .capture number => (number, inside) :: s.closed
      | _ => s.closed
    some { s with
      stack := below
      last := .single
      verbose := group.verbose
      behind := group.behind
      extent := group.extent.item (group.width inside)
      closed := closed
      fits := s.fits && group.allows inside }

/-- Begins another alternative, of which a condition has two at most. -/
def alternative? (s : State) : Option State :=
  let next := { s with last := .nothing, extent := s.extent.alternative }
  match s.stack with
  | group :: below =>
    match group.kind with
    | .condition true => none
    | .condition false =>
      some { next with stack := { group with kind := .condition true } :: below }
    | _ => some next
  | [] => some { next with atStart := false }

def repeat? (s : State) (q : Quantifier) : Option State :=
  if s.last = .single then
    some { s with
      last := .repeated
      atStart := false
      extent := s.extent.repeatLast q.least q.most
      fits := s.fits && !s.single }
  else none

/-- At the end every group is closed and every group that a condition names is there. -/
def isComplete (s : State) : Bool :=
  s.stack.isEmpty && s.fits && s.awaited.all (· ≤ s.count)

end State

end PackageInstaller.Regex
