import TreeLint.Yaml.Cursor
import TreeLint.Yaml.Fault

/-!
# Scalars in a YAML Text

A scalar is written plainly, in single or double quotes, or as a block of lines. In the first
three forms a line end among its characters counts as a blank, and one more than one counts as
itself. A block keeps its line ends, or folds them in the same way.

Each loop takes at least one character in every round, so `Cursor.bound` is enough fuel for it.
The characters that a loop has gathered are kept in reverse.
-/

namespace TreeLint.Yaml

/-! ### Line ends inside a scalar -/

/-- What a line end and the line ends after it count as. -/
def foldBreaks (first more : List Char) : List Char :=
  (if first = ['\n'] then (if more.isEmpty then [' '] else []) else first) ++ more

/-! ### Plain scalars -/

/-- Whether a colon before `rest` ends a plain scalar. -/
def endsAtColon (inFlow : Bool) (rest : List Char) : Bool :=
  let ch := rest.headD '\x00'
  isGapOrEnd ch || (inFlow && [',', '[', ']', '\x7b', '\x7d'].contains ch)

/-- The characters of a plain scalar up to a blank or to what ends it. -/
def plainRun (inFlow : Bool) : List Char → List Char
  | [] => []
  | ch :: rest =>
    if isGapOrEnd ch || (ch = ':' && endsAtColon inFlow rest) ||
        (inFlow && [',', '?', '[', ']', '\x7b', '\x7d'].contains ch) then []
    else ch :: plainRun inFlow rest

/-- The line ends from here on after those in `breaks`, with the blanks between them, and the
cursor after them; nothing if a document starts or ends at one of the lines. -/
def plainBreaks (fuel : Nat) (breaks : List Char) (c : Cursor) :
    Except Fault (Option (List Char) × Cursor) := do
  match fuel with
  | 0 => return (some breaks.reverse, c)
  | fuel + 1 =>
    let ch ← c.peek
    if ch = ' ' then plainBreaks fuel breaks (← c.next)
    else if isBreak ch then
      let (lineBreak, c) ← c.lineBreak
      if ← c.isAtDocumentMarker then return (none, c)
      else plainBreaks fuel (lineBreak ++ breaks) c
    else return (some breaks.reverse, c)

/-- What stands between two runs of a plain scalar: what it counts as, whether it holds a line
end, and the cursor after it. -/
def plainSpaces (c : Cursor) : Except Fault (List Char × Bool × Cursor) := do
  let (blanks, c) ← c.span (· == ' ')
  if isBreak (← c.peek) then
    let (first, c) ← c.lineBreak
    if ← c.isAtDocumentMarker then return ([], true, c)
    match ← plainBreaks c.bound [] c with
    | (none, c) => return ([], true, c)
    | (some more, c) => return (foldBreaks first more, true, c)
  else return (blanks, false, c)

/-- A scalar that was read: its text, the cursor after it, and whether it ended on a later line
than its last character. -/
structure Scanned where
  text : List Char
  cursor : Cursor
  crossedLine : Bool := false

/-- A run of a plain scalar, and the cursor after it. To end at a colon, it has to be known what
comes after the colon. -/
def scanPlainRun (inFlow : Bool) (c : Cursor) : Except Fault (List Char × Cursor) := do
  if (← c.peek) = '#' then return ([], c)
  let run := plainRun inFlow c.rest
  if (← c.peekAt run.length) = ':' then
    let _ ← c.peekAt (run.length + 1)
  return (run, ← c.skip run.length)

/-- A plain scalar from here on, after the text `text` and the space `spaces`. -/
def scanPlainFrom (fuel : Nat) (inFlow : Bool) (indent : Int) (text spaces : List Char)
    (crossed : Bool) (c : Cursor) : Except Fault Scanned := do
  match fuel with
  | 0 => return ⟨text.reverse, c, crossed⟩
  | fuel + 1 =>
    let (run, afterRun) ← scanPlainRun inFlow c
    if run.isEmpty then return ⟨text.reverse, c, crossed⟩
    let text := run.reverse ++ (spaces.reverse ++ text)
    let (spaces, crossed, c) ← plainSpaces afterRun
    if spaces.isEmpty then return ⟨text.reverse, c, crossed⟩
    if (← c.peek) = '#' || (!inFlow && (c.column : Int) < indent) then
      return ⟨text.reverse, c, crossed⟩
    scanPlainFrom fuel inFlow indent text spaces crossed c

/-- The **plain scalar** that starts here, inside a collection with the given indentation. -/
def scanPlain (inFlow : Bool) (indent : Int) (c : Cursor) : Except Fault Scanned :=
  scanPlainFrom c.bound inFlow (indent + 1) [] [] false c

/-! ### Quoted scalars -/

/-- What a character after a backslash stands for. -/
def simpleEscape? (ch : Char) : Option Char :=
  [('0', '\x00'), ('a', '\x07'), ('b', '\x08'), ('t', '\t'), ('\t', '\t'), ('n', '\n'),
    ('v', '\x0b'), ('f', '\x0c'), ('r', '\r'), ('e', '\x1b'), (' ', ' '), ('"', '"'),
    ('\\', '\\'), ('/', '/'), ('N', '\x85'), ('_', '\xa0'), ('L', '\u2028'),
    ('P', '\u2029')].lookup ch

/-- How many digits follow a letter after a backslash. -/
def escapeLength? (ch : Char) : Option Nat := [('x', 2), ('u', 4), ('U', 8)].lookup ch

/-- The value of a hexadecimal digit. -/
def hexDigit? (ch : Char) : Option Nat :=
  if ch.isDigit then some (ch.toNat - 48)
  else if 'a' ≤ ch && ch ≤ 'f' then some (ch.toNat - 87)
  else if 'A' ≤ ch && ch ≤ 'F' then some (ch.toNat - 55)
  else none

/-- The line ends from here on after those in `breaks`, with the blanks around them, which do not
count. -/
def quotedBreaks (fuel : Nat) (breaks : List Char) (c : Cursor) :
    Except Fault (List Char × Cursor) := do
  match fuel with
  | 0 => return (breaks.reverse, c)
  | fuel + 1 =>
    if ← c.isAtDocumentMarker then .error .malformed
    let c ← c.skipWhile fun ch => ch == ' ' || ch == '\t'
    if isBreak (← c.peek) then
      let (lineBreak, c) ← c.lineBreak
      quotedBreaks fuel (lineBreak ++ breaks) c
    else return (breaks.reverse, c)

/-- What stands between two runs of a quoted scalar counts as. -/
def quotedSpaces (c : Cursor) : Except Fault (List Char × Cursor) := do
  let (blanks, c) ← c.span fun ch => ch == ' ' || ch == '\t'
  let ch ← c.peek
  if ch = '\x00' then .error .malformed
  else if isBreak ch then
    let (first, c) ← c.lineBreak
    let (more, c) ← quotedBreaks c.bound [] c
    return (foldBreaks first more, c)
  else return (blanks, c)

/-- The number that the next `length` characters write as hexadecimal digits, after `number`. -/
def scanHex (length number : Nat) (c : Cursor) : Except Fault (Nat × Cursor) := do
  match length with
  | 0 => return (number, c)
  | length + 1 =>
    match hexDigit? (← c.peek) with
    | some digit => scanHex length (16 * number + digit) c.step
    | none => .error .malformed

/-- An escape, from the character after the backslash on. -/
def scanEscape (c : Cursor) : Except Fault (List Char × Cursor) := do
  let ch ← c.peek
  match simpleEscape? ch, escapeLength? ch with
  | some ch, _ => return ([ch], ← c.next)
  | none, some length =>
    let c ← c.next
    let (code, _) ← scanHex length 0 c
    if code < 0x110000 then return ([Char.ofNat code], ← c.skip length)
    else .error (.scalar (.charRange code))
  | none, none =>
    if isBreak ch then
      let (_, c) ← c.lineBreak
      quotedBreaks c.bound [] c
    else .error .malformed

/-- The characters of a quoted scalar up to a blank, to a line end, or to its end, after those in
`text`, and in reverse as those are. -/
def quotedRun (fuel : Nat) (isDouble : Bool) (text : List Char) (c : Cursor) :
    Except Fault (List Char × Cursor) := do
  match fuel with
  | 0 => return (text, c)
  | fuel + 1 =>
    let (run, c) ← c.span fun ch => !(isGapOrEnd ch || ch == '\'' || ch == '"' || ch == '\\')
    let text := run.reverse ++ text
    let ch ← c.peek
    if isDouble then
      if ch = '\'' then quotedRun fuel isDouble (ch :: text) (← c.next)
      else if ch = '\\' then
        let (escaped, c) ← scanEscape (← c.next)
        quotedRun fuel isDouble (escaped.reverse ++ text) c
      else return (text, c)
    else if ch = '\'' then
      if (← c.peekAt 1) = '\'' then quotedRun fuel isDouble (ch :: text) (← c.skip 2)
      else return (text, c)
    else if ch = '"' || ch = '\\' then quotedRun fuel isDouble (ch :: text) (← c.next)
    else return (text, c)

/-- A quoted scalar up to its closing quote, after the characters in `text`. -/
def scanQuotedFrom (fuel : Nat) (isDouble : Bool) (text : List Char) (c : Cursor) :
    Except Fault (List Char × Cursor) := do
  match fuel with
  | 0 => .error .malformed
  | fuel + 1 =>
    if (← c.peek) = (if isDouble then '"' else '\'') then return (text.reverse, ← c.next)
    let (spaces, c) ← quotedSpaces c
    let (text, c) ← quotedRun c.bound isDouble (spaces.reverse ++ text) c
    scanQuotedFrom fuel isDouble text c

/-- The **quoted scalar** whose opening quote is here. -/
def scanQuoted (isDouble : Bool) (c : Cursor) : Except Fault (List Char × Cursor) := do
  let c ← c.next
  let (text, c) ← quotedRun c.bound isDouble [] c
  scanQuotedFrom c.bound isDouble text c

/-! ### Block scalars -/

/-- What happens to the line ends at the end of a block. -/
inductive Chomping where
  | clip
  | strip
  | keep
  deriving DecidableEq, Repr

/-- The header of a block: what happens at its end, and how much deeper it is indented than what
is around it if that is written. -/
structure BlockHeader where
  chomping : Chomping := .clip
  increment : Option Nat := none

/-- The chomping that a character asks for. -/
def chomping? (ch : Char) : Option Chomping :=
  if ch = '+' then some .keep else if ch = '-' then some .strip else none

/-- A digit of a header other than zero. -/
def increment? (ch : Char) : Option Nat :=
  if '1' ≤ ch && ch ≤ '9' then some (ch.toNat - 48) else none

/-- The header of a block, up to the line after it. -/
def scanBlockHeader (c : Cursor) : Except Fault (BlockHeader × Cursor) := do
  let ch ← c.peek
  let (header, c) : BlockHeader × Cursor ←
    match chomping? ch, increment? ch with
    | some chomping, _ => do
      let c ← c.next
      match increment? (← c.peek) with
      | some n => pure (⟨chomping, some n⟩, ← c.next)
      | none => pure (⟨chomping, none⟩, c)
    | none, some n => do
      let c ← c.next
      match chomping? (← c.peek) with
      | some chomping => pure (⟨chomping, some n⟩, ← c.next)
      | none => pure (⟨.clip, some n⟩, c)
    | none, none => pure ({}, c)
  if isSpaceOrEnd (← c.peek) then return (header, ← c.skipLineEnd) else .error .malformed

/-- The empty lines before a block whose indentation is not written, after those in `breaks`, and
the greatest column that blanks reach on the way. -/
def blockIndentation (fuel : Nat) (breaks : List Char) (deepest : Nat) (c : Cursor) :
    Except Fault (List Char × Nat × Cursor) := do
  match fuel with
  | 0 => return (breaks.reverse, deepest, c)
  | fuel + 1 =>
    let ch ← c.peek
    if ch = ' ' then
      let c ← c.next
      blockIndentation fuel breaks (max deepest c.column) c
    else if isBreak ch then
      let (lineBreak, c) ← c.lineBreak
      blockIndentation fuel (lineBreak ++ breaks) deepest c
    else return (breaks.reverse, deepest, c)

/-- The cursor after blanks up to a column. -/
def skipIndent (indent : Nat) (c : Cursor) : Except Fault Cursor :=
  c.skip (min (indent - c.column) (c.rest.takeWhile (· == ' ')).length)

/-- The empty lines from here on after those in `breaks`, and the cursor in the column of the block
on the line after them, or before it if that line is indented less. -/
def blockBreaks (fuel : Nat) (indent : Nat) (breaks : List Char) (c : Cursor) :
    Except Fault (List Char × Cursor) := do
  match fuel with
  | 0 => return (breaks.reverse, c)
  | fuel + 1 =>
    let c ← skipIndent indent c
    if isBreak (← c.peek) then
      let (lineBreak, c) ← c.lineBreak
      blockBreaks fuel indent (lineBreak ++ breaks) c
    else return (breaks.reverse, c)

/-- Whether a line of a block starts here. -/
def startsBlockLine (indent : Nat) (c : Cursor) : Except Fault Bool := do
  if c.column = indent then return (← c.peek) != '\x00' else return false

/-- The lines of a block from here on, after the text `text` and the empty lines `breaks`. Gives
the text, the end of its last line, and the empty lines after it. -/
def blockLines (fuel : Nat) (isFolded : Bool) (indent : Nat) (text breaks : List Char)
    (c : Cursor) : Except Fault (List Char × List Char × List Char × Cursor) := do
  match fuel with
  | 0 => return (text.reverse, [], breaks, c)
  | fuel + 1 =>
    let first ← c.peek
    let (line, c) ← c.span fun ch => !isBreak ch
    let text := line.reverse ++ (breaks.reverse ++ text)
    let (lineBreak, c) ← c.lineBreak
    let (breaks, c) ← blockBreaks c.bound indent [] c
    if ← startsBlockLine indent c then
      let second ← c.peek
      let isJoined := isFolded && lineBreak = ['\n'] && first != ' ' && first != '\t' &&
        second != ' ' && second != '\t'
      let joint := if isJoined then (if breaks.isEmpty then [' '] else []) else lineBreak
      blockLines fuel isFolded indent (joint.reverse ++ text) breaks c
    else return (text.reverse, lineBreak, breaks, c)

/-- The **block scalar** whose indicator is here, inside a collection with the given
indentation. -/
def scanBlock (isFolded : Bool) (around : Int) (c : Cursor) :
    Except Fault (List Char × Cursor) := do
  let (header, c) ← scanBlockHeader (← c.next)
  let least := max 1 (around + 1).toNat
  let (indent, breaks, c) : Nat × List Char × Cursor ←
    match header.increment with
    | none => do
      let (breaks, deepest, c) ← blockIndentation c.bound [] 0 c
      pure (max least deepest, breaks, c)
    | some increment => do
      let indent := least + increment - 1
      let (breaks, c) ← blockBreaks c.bound indent [] c
      pure (indent, breaks, c)
  let (text, lineBreak, breaks, c) ←
    if ← startsBlockLine indent c then
      blockLines c.bound isFolded indent [] breaks c
    else pure ([], [], breaks, c)
  return (text ++ (match header.chomping with
    | .strip => []
    | .clip => lineBreak
    | .keep => lineBreak ++ breaks), c)

end TreeLint.Yaml
