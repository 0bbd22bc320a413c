import TreeLint.Console.Style
import TreeLint.Console.StyledText

/-!
# Lines of a Given Width

A text is laid out in lines of at most `width` cells. A line ends at every line feed, and at a
blank where the next word does not fit. A word that is wider than a line is either folded over
several lines or cut, with an ellipsis in its last cell (`Overflow`).

## What is assumed

Which character counts as a blank, where a line may end, and that a line keeps the blanks before
its first word: all this is how the console lays out any text, and is not a choice of reports.
-/

namespace TreeLint.Console

/-- What happens to a word that is wider than a line. -/
inductive Overflow where
  | fold
  | ellipsis
  deriving DecidableEq, Repr

/-- Where a line stands in the space that it is given. `ragged` lines are not filled up. -/
inductive Justify where
  | ragged
  | left
  | right
  deriving DecidableEq, Repr

/-! ### Breaking lines -/

/-- The words of a line, each with the blanks after it, after those in `done`, which are in
reverse. `rest` starts with a blank or is empty once the word is taken. -/
def breakableWordsFrom (done : List (List Char)) (word : List Char) (inBlanks : Bool) :
    List Char → List (List Char)
  | [] => (word.reverse :: done).reverse
  | c :: rest =>
    if Text.isBlank c then breakableWordsFrom done (c :: word) true rest
    else if inBlanks then breakableWordsFrom (word.reverse :: done) [c] false rest
    else breakableWordsFrom done (c :: word) false rest

/-- The words of a line, each with the blanks after it; the first has the blanks before it as
well. A line of blanks has none. -/
def breakableWords (line : List Char) : List (List Char) :=
  let lead := line.takeWhile Text.isBlank
  match line.drop lead.length with
  | [] => []
  | rest => breakableWordsFrom [] lead.reverse false rest

/-- Where a line is broken so far, in reverse, where the next word starts in it, and how many
cells are used after the last break. -/
structure LineBreaker where
  breaks : List Nat := []
  offset : Nat := 0
  used : Nat := 0

namespace LineBreaker

/-- Break the line at an offset. Nothing is broken before the first character. -/
def breakAt (b : LineBreaker) (offset : Nat) : LineBreaker :=
  if offset = 0 then b else { b with breaks := offset :: b.breaks }

/-- Break the line before every piece of a word that starts at an offset. -/
def fold (b : LineBreaker) (offset : Nat) : List (List Char) → LineBreaker
  | [] => b
  | [piece] => { b.breakAt offset with used := cells piece }
  | piece :: rest => (b.breakAt offset).fold (offset + piece.length) rest

/-- Make room for a word: on this line if it fits without the blanks after it, else on the
next. -/
def place (overflow : Overflow) (width : Nat) (b : LineBreaker) (word : List Char) :
    LineBreaker :=
  let needed := cells (Text.trimEnd word)
  if b.used + needed ≤ width then { b with used := b.used + cells word }
  else if width < needed then
    match overflow with
    | .fold => b.fold b.offset (chop width word)
    | .ellipsis => { b.breakAt b.offset with used := cells word }
  else if b.used = 0 || b.offset = 0 then b
  else { b.breakAt b.offset with used := cells word }

/-- Go on after a word. -/
def add (overflow : Overflow) (width : Nat) (b : LineBreaker) (word : List Char) : LineBreaker :=
  { b.place overflow width word with offset := b.offset + word.length }

end LineBreaker

/-- The offsets at which a line without line feeds is broken. -/
def breakOffsets (overflow : Overflow) (width : Nat) (line : List Char) : List Nat :=
  ((breakableWords line).foldl (LineBreaker.add overflow width) {}).breaks.reverse

/-! ### Filling lines -/

namespace StyledText

/-- The line without blanks at its end as far as they are past the width. -/
def dropExcessBlanks (width : Nat) (line : StyledText) : StyledText :=
  let length := line.chars.length
  if length ≤ width then line
  else
    let blanks := (line.chars.reverse.takeWhile Text.isBlank).length
    line.withChars (line.chars.take (length - min blanks (length - width)))

/-- The line cut to the width. -/
def truncate (overflow : Overflow) (width : Nat) (line : StyledText) :
    Except CutFault StyledText :=
  if cells line.chars ≤ width then .ok line
  else
    match overflow with
    | .fold => do return line.withChars (← fit width line.chars)
    | .ellipsis => do return line.withChars ((← fit (width - 1) line.chars) ++ ['…'])

/-- The line put in its place. -/
def justify (how : Justify) (overflow : Overflow) (width : Nat) (line : StyledText) :
    Except CutFault StyledText :=
  match how with
  | .ragged => .ok line
  | .left =>
    if cells line.chars < width then .ok (line.padRight (width - cells line.chars))
    else line.truncate overflow width
  | .right => do
    let line ← (line.withChars (Text.trimEnd line.chars)).truncate overflow width
    return line.padLeft (width - cells line.chars)

/-- The **lines of a text** in a given width. -/
def wrap (how : Justify) (overflow : Overflow) (width : Nat) (text : StyledText) :
    Except CutFault (List StyledText) := do
  let lines := text.splitLines.flatMap fun line =>
    let line := line.expandTabs
    line.divide (breakOffsets overflow width line.chars)
  lines.mapM fun line => do
    (← (line.dropExcessBlanks width).justify how overflow width).truncate overflow width

/-- Whether the names of all styles of a text can be read. -/
def checkStyles (text : StyledText) : Except LevelFault Unit :=
  text.spans.forM fun s =>
    match s.style with
    | some name => (TextStyle.ofName name).map fun _ => ()
    | none => .ok ()

/-- The text in lines of runs. -/
def lines (how : Justify) (overflow : Overflow) (width : Nat) (text : StyledText) :
    Except Fault (List Line) := do
  let lines ← (text.wrap how overflow width).mapError .cut
  lines.forM fun line => line.checkStyles.mapError .level
  return lines.map runs

end StyledText

end TreeLint.Console
