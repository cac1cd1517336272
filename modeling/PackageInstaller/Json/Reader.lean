import PackageInstaller.Encoding.Detect
import PackageInstaller.Json.Scalar

/-!
Reading JSON. The reader goes through the text once: it keeps the arrays and objects that it is
inside of on a stack, and what may come next in its state.
-/

namespace PackageInstaller.Json

/-- So many arrays and objects may be open at once. -/
def depthLimit : Nat := 985

inductive Frame where
  | array (items : List Json)
  | object (members : List (Text × Json)) (name : Text)

inductive State where
  | value
  | firstItem
  | firstName
  | name
  | colon
  | next
  | finished (value : Json)

def State.missing : State → Flaw
  | .value => .expectingValue
  | .firstItem => .expectingValue
  | .firstName => .expectingName
  | .name => .expectingName
  | .colon => .expectingColon
  | .next => .expectingComma
  | .finished _ => .extraData

/-- Where the reader goes after a character: the offset of the next one that it looks at, and its
state and stack there. -/
structure Move where
  stop : Nat
  state : State
  stack : List Frame

def deliver (stop : Nat) (value : Json) : List Frame → Move
  | [] => ⟨stop, .finished value, []⟩
  | .array items :: below => ⟨stop, .next, .array (items ++ [value]) :: below⟩
  | .object members name :: below => ⟨stop, .next, .object (members ++ [(name, value)]) name :: below⟩

def openContainer (pos : Nat) (stack : List Frame) (name : String) (state : State) (frame : Frame) :
    Except Flawed Move :=
  if stack.length < depthLimit then .ok ⟨pos + 1, state, frame :: stack⟩
  else .error ⟨.tooDeep name, pos⟩

section

variable (half : Nat → Char)

def atValue (pos : Nat) (stack : List Frame) (c : Char) (t : Text) : Except Flawed Move :=
  match c with
  | '[' => openContainer pos stack "array" .firstItem (.array [])
  | '{' => openContainer pos stack "object" .firstName (.object [] [])
  | _ => (scalarFrom half pos (c :: t)).map fun (value, stop) => deliver stop value stack

def atName (pos : Nat) (c : Char) (t : Text) : List Frame → Except Flawed Move
  | .object members _ :: below =>
    if c = '"' then
      (stringFrom half pos t).map fun (name, stop) => ⟨stop, .colon, .object members name :: below⟩
    else .error ⟨.expectingName, pos⟩
  | _ => .error ⟨.expectingName, pos⟩

def atNext (pos : Nat) (c : Char) : List Frame → Except Flawed Move
  | .array items :: below =>
    if c = ',' then .ok ⟨pos + 1, .value, .array items :: below⟩
    else if c = ']' then .ok (deliver (pos + 1) (.array items) below)
    else .error ⟨.expectingComma, pos⟩
  | .object members name :: below =>
    if c = ',' then .ok ⟨pos + 1, .name, .object members name :: below⟩
    else if c = '}' then .ok (deliver (pos + 1) (.object members) below)
    else .error ⟨.expectingComma, pos⟩
  | [] => .error ⟨.expectingComma, pos⟩

def step (pos : Nat) (state : State) (stack : List Frame) (c : Char) (t : Text) :
    Except Flawed Move :=
  match state with
  | .value => atValue half pos stack c t
  | .firstItem => if c = ']' then atNext pos c stack else atValue half pos stack c t
  | .firstName => if c = '}' then atNext pos c stack else atName half pos c t stack
  | .name => atName half pos c t stack
  | .colon => if c = ':' then .ok ⟨pos + 1, .value, stack⟩ else .error ⟨.expectingColon, pos⟩
  | .next => atNext pos c stack
  | .finished _ => .error ⟨.extraData, pos⟩

def isSpace (c : Char) : Bool := [' ', '\t', '\n', '\r'].elem c

/-- Reads on from offset `pos`, but looks at nothing before offset `resume`. -/
def run (resume pos : Nat) (state : State) (stack : List Frame) : Text → Except Flawed Json
  | [] =>
    match state with
    | .finished value => .ok value
    | _ => .error ⟨state.missing, pos⟩
  | c :: t =>
    if pos < resume ∨ isSpace c then run resume (pos + 1) state stack t
    else
      match step half pos state stack c t with
      | .ok move => run move.stop (pos + 1) move.state move.stack t
      | .error e => .error e

end

def Flaw.describe : Flaw → String
  | .expectingValue => "Expecting value"
  | .expectingName => "Expecting property name enclosed in double quotes"
  | .expectingColon => "Expecting ':' delimiter"
  | .expectingComma => "Expecting ',' delimiter"
  | .controlCharacter => "Invalid control character at"
  | .unterminated => "Unterminated string starting at"
  | .invalidEscape => "Invalid \\escape"
  | .invalidUnicodeEscape => "Invalid \\uXXXX escape"
  | .extraData => "Extra data"
  | .byteOrderMark => "Unexpected UTF-8 BOM (decode using utf-8-sig)"
  | .oversized digits =>
    s!"Exceeds the limit ({digitLimit} digits) for integer string conversion: value has {digits} digits; use sys.set_int_max_str_digits() to increase the limit"
  | .tooDeep container =>
    s!"maximum recursion depth exceeded while decoding a JSON {container} from a unicode string"

/-- Whether a flaw breaks the rules of the format. The others exceed what the reader can do. -/
def Flaw.isSyntax : Flaw → Bool
  | .oversized _ => false
  | .tooDeep _ => false
  | _ => true

/-- A flaw with its place in the text: lines and columns count from one. -/
structure ReadError where
  flaw : Flaw
  offset : Nat
  line : Nat
  column : Nat
  deriving DecidableEq, Repr

def ReadError.ofFlawed (t : Text) (e : Flawed) : ReadError :=
  let before := t.take e.offset
  ⟨e.flaw, e.offset, (before.filter (· = '\n')).length + 1,
    (before.reverse.takeWhile (· ≠ '\n')).length + 1⟩

/-- The report of a limit names no place. -/
def ReadError.message (e : ReadError) : String :=
  if e.flaw.isSyntax then
    s!"{e.flaw.describe}: line {e.line} column {e.column} (char {e.offset})"
  else e.flaw.describe

def read (t : Text) (half : Nat → Char := Encoding.ofHalf) : Except ReadError Json :=
  (run half 0 0 .value [] t).mapError (.ofFlawed t)

/-- Reads the text of a file, which has to be without a byte order mark. -/
def readFile (t : Text) (half : Nat → Char := Encoding.ofHalf) : Except ReadError Json :=
  if t.head? = some '\uFEFF' then .error (.ofFlawed t ⟨.byteOrderMark, 0⟩) else read t half

inductive BodyError where
  | undecodable (cause : DecodingError)
  | malformed (cause : ReadError)
  deriving DecidableEq, Repr

def BodyError.message : BodyError → String
  | .undecodable cause => cause.message
  | .malformed cause => cause.message

/-- Reads the body of a response, whose encoding shows in its first bytes. -/
def readBody (bytes : Bytes) : Except BodyError Json := do
  let t ← (Encoding.decodeDetected bytes).mapError .undecodable
  (read t).mapError .malformed

end PackageInstaller.Json
