import PackageInstaller.Manifest.ArgumentList

/-!
Adding one element to a list. What the list already holds is never rewritten: a separator and the new
element are put between its parts, on a line of its own where the list spreads over lines.
-/

namespace PackageInstaller.Manifest.Layout

def lineStart (t : Text) (pos : Nat) : Nat :=
  (t.take pos).length - ((t.take pos).reverse.takeWhile (· ≠ '\n')).length

def isIndent (c : Char) : Bool := c = ' ' || c = '\t'

/-- The leading blanks of the line that holds `pos`. -/
def lineIndent (t : Text) (pos : Nat) : Text := (t.drop (lineStart t pos)).takeWhile isIndent

def indentUnit : Text → Text
  | '\t' :: _ => ['\t']
  | _ => [' ', ' ', ' ', ' ']

/-- Whether the first element stands on a line of its own. -/
def isMultiline (t : Text) (args : ArgumentList) : Bool :=
  let stop := (args.items.head?.map (·.span.start)).getD args.closer
  (t.slice (args.opener + 1) stop).elem '\n'

/-- The end of the line comment that follows `pos` on its line, or `pos`. -/
def pastLineComment (t : Text) (pos limit : Nat) : Nat :=
  let start := pos + ((t.slice pos limit).takeWhile isIndent).length
  if ['/', '/'].isPrefixOf (t.drop start) then (t.indexFrom? '\n' start limit).getD limit else pos

def insertAt (t : Text) (pos : Nat) (piece : Text) : Text := t.take pos ++ piece ++ t.drop pos

def insertAfterItem (t : Text) (args : ArgumentList) (item : Argument) (element : Text) : Text :=
  let stop := item.span.stop
  if isMultiline t args then
    let line := '\n' :: lineIndent t item.span.start ++ element
    match item.comma with
    | some comma => insertAt t (pastLineComment t (comma + 1) args.closer) (line ++ [','])
    | none =>
      let pos := pastLineComment t stop args.closer
      t.take stop ++ [','] ++ t.slice stop pos ++ line ++ t.drop pos
  else
    match item.comma with
    | some comma => insertAt t (comma + 1) (' ' :: element ++ [','])
    | none => insertAt t stop ([',', ' '] ++ element)

/-- Puts the element right after the item at `index`. -/
def insertAfter (t : Text) (args : ArgumentList) (index : Nat) (element : Text) : Scan Text :=
  match args.items[index]? with
  | some item => .ok (insertAfterItem t args item element)
  | none => .error .noItem

def prependToItem (t : Text) (args : ArgumentList) (first : Argument) (element : Text) : Text :=
  if isMultiline t args then
    insertAt t (lineStart t first.span.start)
      (lineIndent t first.span.start ++ element ++ [',', '\n'])
  else insertAt t first.span.start (element ++ [',', ' '])

/-- Puts the element before the first item. -/
def prepend (t : Text) (args : ArgumentList) (element : Text) : Scan Text :=
  match args.items.head? with
  | some first => .ok (prependToItem t args first element)
  | none => .error .noItem

/-- Makes the element the only one of an empty list. Comments inside the list are kept; blanks give
way to the element. -/
def fillEmpty (t : Text) (args : ArgumentList) (element : Text) (multiline : Bool) : Text :=
  let interior := t.slice (args.opener + 1) args.closer
  let hasText := !interior.all Text.isBlank
  if multiline || interior.elem '\n' then
    let base := lineIndent t args.opener
    let line := '\n' :: base ++ indentUnit base ++ element
    if hasText then insertAt t (args.opener + 1) line
    else t.take (args.opener + 1) ++ line ++ '\n' :: base ++ t.drop args.closer
  else if hasText then insertAt t (args.opener + 1) element
  else t.take (args.opener + 1) ++ element ++ t.drop args.closer

end PackageInstaller.Manifest.Layout
