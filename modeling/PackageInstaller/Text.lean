/-!
A text is the list of its code points: an offset into it is an index, and a slice runs from its
first offset up to, and without, its second. A report is cut into lines at every line end there is; a
file is read with each carriage return, alone or before a line feed, taken as a line feed. A plain
device shows a text without the control sequences that would colour it or move the cursor.
-/

namespace PackageInstaller

abbrev Text := List Char

namespace Text

def slice (t : Text) (start stop : Nat) : Text := (t.drop start).take (stop - start)

/-- The offset of the first `c` at or after `start` and before `stop`. -/
def indexFrom? (t : Text) (c : Char) (start stop : Nat) : Option Nat :=
  let part := t.slice start stop
  let before := part.takeWhile (· ≠ c)
  if before.length < part.length then some (start + before.length) else none

/-- The text with every occurrence of `old` replaced by `new`, read from the left. An empty `old`
stands before every character and at the end. -/
def replaceAll (old new : Text) : Nat → Text → Text
  | _, [] => if old.isEmpty then new else []
  | k + 1, _ :: t => replaceAll old new k t
  | 0, c :: t =>
    if old.isEmpty then new ++ c :: replaceAll old new 0 t
    else if old.isPrefixOf (c :: t) then new ++ replaceAll old new (old.length - 1) t
    else c :: replaceAll old new 0 t

/-- The parts joined with `separator` between them. -/
def join (separator : Text) : List Text → Text
  | [] => []
  | [part] => part
  | part :: rest => part ++ separator ++ join separator rest

def dropRight (t : Text) (n : Nat) : Text := t.take (t.length - n)

def trimRight (p : Char → Bool) (t : Text) : Text := (t.reverse.dropWhile p).reverse

def trim (p : Char → Bool) (t : Text) : Text := trimRight p (t.dropWhile p)

def isLineEnd (c : Char) : Bool :=
  ['\n', '\r', '\x0B', '\x0C', '\x1C', '\x1D', '\x1E', '\u0085', '\u2028', '\u2029'].elem c

/-- The lines of a text without their ends; `line` is the reversed beginning of the current one. -/
def linesFrom (line : Text) : Text → List Text
  | [] => if line.isEmpty then [] else [line.reverse]
  | '\r' :: '\n' :: t => line.reverse :: linesFrom [] t
  | c :: t => if isLineEnd c then line.reverse :: linesFrom [] t else linesFrom (c :: line) t

def lines (t : Text) : List Text := linesFrom [] t

def unifyLineEnds : Text → Text
  | [] => []
  | '\r' :: '\n' :: t => '\n' :: unifyLineEnds t
  | c :: t => (if c = '\r' then '\n' else c) :: unifyLineEnds t

/-- The lines of a text that is typed: each ends at a line feed, and what comes after the last one is
a line if there is anything. -/
def typedLinesFrom (line : Text) : Text → List Text
  | [] => if line.isEmpty then [] else [line.reverse]
  | c :: t =>
    if c = '\n' then line.reverse :: typedLinesFrom [] t else typedLinesFrom (c :: line) t

def typedLines (t : Text) : List Text := typedLinesFrom [] (unifyLineEnds t)

def isParameter (c : Char) : Bool := '0' ≤ c && c ≤ '?'

def isIntermediate (c : Char) : Bool := ' ' ≤ c && c ≤ '/'

def isFinal (c : Char) : Bool := '@' ≤ c && c ≤ '~'

/-- The length of the rest of a control sequence whose first two characters have been read: its
parameters, then characters between, and the final one that says what it does. -/
def sequenceLength? (t : Text) : Option Nat :=
  let parameters := t.takeWhile isParameter
  let between := (t.drop parameters.length).takeWhile isIntermediate
  match t.drop (parameters.length + between.length) with
  | c :: _ => if isFinal c then some (parameters.length + between.length + 1) else none
  | [] => none

def plainFrom : Nat → Text → Text
  | _, [] => []
  | skip + 1, _ :: t => plainFrom skip t
  | 0, c :: t =>
    match c, t with
    | '\x1B', '[' :: rest =>
      match sequenceLength? rest with
      | some n => plainFrom (n + 1) t
      | none => c :: plainFrom 0 t
    | _, _ => c :: plainFrom 0 t

def plain (t : Text) : Text := plainFrom 0 t

end Text

end PackageInstaller
