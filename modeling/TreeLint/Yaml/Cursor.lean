import TreeLint.Yaml.Source

/-!
# Places in a YAML Text

A `Cursor` is what is left of a text together with the line and the column of its first
character. The text has its line ends normalised, so that no carriage return occurs in it, and
holds no null character: `Cursor.peek` gives one at the end of the text.

The characters may stop before the text does, and then looking any further is a fault. Passing
characters looks at the one after them.
-/

namespace TreeLint.Yaml

/-- Whether a character ends a line. -/
def isBreak (c : Char) : Bool := c = '\n' || c = '\x85' || c = '\u2028' || c = '\u2029'

/-- Whether a character ends a line, or there is none. -/
def isBreakOrEnd (c : Char) : Bool := c = '\x00' || isBreak c

/-- Whether a character is a blank or ends a line, or there is none. -/
def isSpaceOrEnd (c : Char) : Bool := c = ' ' || isBreakOrEnd c

/-- Whether a character is a blank or a tab or ends a line, or there is none. -/
def isGapOrEnd (c : Char) : Bool := c = '\t' || isSpaceOrEnd c

/-- Whether a character can stand in the name of an anchor, of a directive or of a handle. -/
def isNameChar (c : Char) : Bool := c.isAlphanum || c = '-' || c = '_'

/-- The rest of a text, and where it starts. -/
structure Cursor where
  rest : List Char
  /-- Why no characters come after these, unless the text ends there. -/
  beyond : Option Fault := none
  /-- How many characters the whole text has. -/
  size : Nat := 0
  index : Nat := 0
  line : Nat := 0
  column : Nat := 0

namespace Cursor

/-- The start of a text. -/
def start (source : Source) : Cursor :=
  { rest := source.text, beyond := source.beyond, size := source.text.length }

/-- More than the characters that are left: enough fuel for a loop that takes one in every
round. -/
def bound (c : Cursor) : Nat := c.size + 1

/-- The character `n` places ahead, or the null character after the end. -/
def peekAt (c : Cursor) (n : Nat) : Except Fault Char :=
  match c.rest[n]?, c.beyond with
  | some ch, _ => .ok ch
  | none, none => .ok '\x00'
  | none, some fault => .error fault

/-- The next character, or the null character at the end. -/
def peek (c : Cursor) : Except Fault Char := c.peekAt 0

/-- The cursor after the next character. A byte order mark takes no column. -/
def step (c : Cursor) : Cursor :=
  match c.rest with
  | [] => c
  | ch :: rest =>
    if isBreak ch then { c with rest, index := c.index + 1, line := c.line + 1, column := 0 }
    else
      let column := if ch = '\ufeff' then c.column else c.column + 1
      { c with rest, index := c.index + 1, column }

/-- The cursor after `n` characters. -/
def steps (c : Cursor) : Nat → Cursor
  | 0 => c
  | n + 1 => c.step.steps n

/-- Pass `n` characters. -/
def skip (c : Cursor) (n : Nat) : Except Fault Cursor := do
  let _ ← c.peekAt n
  return c.steps n

/-- Pass the next character. -/
def next (c : Cursor) : Except Fault Cursor := c.skip 1

/-- The next characters that satisfy `p`, and the cursor after them. -/
def span (c : Cursor) (p : Char → Bool) : Except Fault (List Char × Cursor) := do
  let run := c.rest.takeWhile p
  return (run, ← c.skip run.length)

/-- The cursor after the next characters that satisfy `p`. -/
def skipWhile (c : Cursor) (p : Char → Bool) : Except Fault Cursor := do
  return (← c.span p).2

/-- The next three characters, or fewer at the end. -/
def nextThree (c : Cursor) : Except Fault (List Char) := do
  let _ ← c.peekAt 2
  return c.rest.take 3

/-- Whether three of a character stand here, with a gap or the end after them. -/
def isAtMarker (c : Cursor) (marker : Char) : Except Fault Bool := do
  if (← c.nextThree) = [marker, marker, marker] then return isGapOrEnd (← c.peekAt 3)
  else return false

/-- Whether a document starts or ends here. -/
def isAtDocumentMarker (c : Cursor) : Except Fault Bool := do
  if ← c.isAtMarker '-' then return true else c.isAtMarker '.'

/-- A line end as it counts in a text, and the cursor after it; nothing if there is none here.
The separators of lines and paragraphs count as themselves, all others as a line feed. -/
def lineBreak (c : Cursor) : Except Fault (List Char × Cursor) := do
  let ch ← c.peek
  if ch = '\n' || ch = '\x85' then return (['\n'], ← c.next)
  else if ch = '\u2028' || ch = '\u2029' then return ([ch], ← c.next)
  else return ([], c)

/-- The cursor after a comment, if there is one here. -/
def skipComment (c : Cursor) : Except Fault Cursor := do
  if (← c.peek) = '#' then c.skipWhile fun ch => !isBreak ch else return c

/-- The cursor after the blanks and the comment that may end a line, and the line end. Nothing
else may stand on the line. -/
def skipLineEnd (c : Cursor) : Except Fault Cursor := do
  let c ← (← c.skipWhile (· == ' ')).skipComment
  if isBreakOrEnd (← c.peek) then return (← c.lineBreak).2 else .error .malformed

end Cursor

end TreeLint.Yaml
