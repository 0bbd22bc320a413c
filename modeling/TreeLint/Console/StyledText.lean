import TreeLint.Console.Cells

/-!
# Styled Text

A text with the parts of it that are in a style of their own. No style is drawn here, but where
styles begin and end is where a line falls into **runs**, and runs are measured one by one. So a
text is divided, filled up and cut together with its styles.
-/

namespace TreeLint.Console

/-- A part of a text in a style, from one offset up to another. A style that is not named cannot
be misread. -/
structure Span where
  start : Nat
  stop : Nat
  style : Option String := none

namespace Span

/-- The span further on in a text. -/
def shift (s : Span) (n : Nat) : Span := { s with start := s.start + n, stop := s.stop + n }

/-- What the span covers of a piece of the text, counted from where the piece starts. -/
def within? (s : Span) (start length : Nat) : Option Span :=
  let first := max s.start start
  let last := min s.stop (start + length)
  if first < last then some { s with start := first - start, stop := last - start } else none

end Span

/-- A text, its spans, and whether it has a style as a whole. -/
structure StyledText where
  chars : List Char
  spans : List Span := []
  isStyled : Bool := false

namespace StyledText

/-! ### Dividing -/

/-- The characters cut at ascending offsets, each piece with its own offset. `start` is the offset
of the first character. -/
def cutAt (start : Nat) (cs : List Char) : List Nat → List (Nat × List Char)
  | [] => [(start, cs)]
  | offset :: rest =>
    let (piece, cs) := cs.splitAt (offset - start)
    (start, piece) :: cutAt offset cs rest

/-- The piece of a text with given characters from an offset on. -/
def piece (t : StyledText) (start : Nat) (chars : List Char) : StyledText :=
  { t with chars, spans := t.spans.filterMap fun s => s.within? start chars.length }

/-- The text divided at ascending offsets. -/
def divide (t : StyledText) (offsets : List Nat) : List StyledText :=
  if offsets.isEmpty then [t] else (cutAt 0 t.chars offsets).map fun (o, cs) => t.piece o cs

/-- The offsets at which a character stands in a text that starts at `offset`. -/
def offsetsOf (c : Char) (offset : Nat) : List Char → List Nat
  | [] => []
  | d :: rest => if d = c then offset :: offsetsOf c (offset + 1) rest
    else offsetsOf c (offset + 1) rest

/-- The lines of the text, without the line feeds between them. -/
def splitLines (t : StyledText) : List StyledText :=
  let feeds := offsetsOf '\n' 0 t.chars
  if feeds.isEmpty then [t]
  else ((cutAt 0 t.chars (feeds.flatMap fun o => [o, o + 1])).filter fun (_, cs) =>
    cs != ['\n']).map fun (o, cs) => t.piece o cs

/-! ### Changing the end -/

/-- The text with characters that have nothing put before what is left of the old ones. Spans end
where the text does. -/
def withChars (t : StyledText) (chars : List Char) : StyledText :=
  let length := chars.length
  if t.chars.length ≤ length then { t with chars }
  else
    let spans := (t.spans.filter fun s => s.start < length).map fun s =>
      { s with stop := min length s.stop }
    { t with chars, spans }

/-- The text with blanks at its end. -/
def padRight (t : StyledText) (n : Nat) : StyledText := { t with chars := t.chars ++ blanks n }

/-- The text with blanks at its start. -/
def padLeft (t : StyledText) (n : Nat) : StyledText :=
  { t with chars := blanks n ++ t.chars, spans := t.spans.map fun s => s.shift n }

/-- The text with blanks at its end in the styles that it ends in. -/
def extend (t : StyledText) (n : Nat) : StyledText :=
  let spans := t.spans.map fun s =>
    if t.chars.length ≤ s.stop then { s with stop := s.stop + n } else s
  { t with chars := t.chars ++ blanks n, spans }

/-! ### Tabs -/

/-- How far apart tab stops are. -/
def tabSize : Nat := 8

/-- A piece that ends in a tab, with blanks up to the next stop in place of it, and the column
after it. The tab itself becomes a blank before anything is measured. -/
def expandTab (column : Nat) (t : StyledText) : StyledText × Nat :=
  let t := { t with chars := t.chars.dropLast ++ [' '] }
  let column := column + cells t.chars
  let beyond := column % tabSize
  if beyond = 0 then (t, column) else (t.extend (tabSize - beyond), column + (tabSize - beyond))

/-- The pieces of a line with their tabs expanded, from a column on. -/
def expandPieces (column : Nat) : List StyledText → List StyledText
  | [] => []
  | t :: rest =>
    if t.chars.getLast? = some '\t' then
      let (t, column) := expandTab column t
      t :: expandPieces column rest
    else t :: expandPieces (column + cells t.chars) rest

/-- Pieces put together. A piece with a style as a whole becomes a span. -/
def joinFrom (offset : Nat) : List StyledText → List Char × List Span
  | [] => ([], [])
  | t :: rest =>
    let (chars, spans) := joinFrom (offset + t.chars.length) rest
    let own := if t.isStyled then [⟨offset, offset + t.chars.length, none⟩] else []
    (t.chars ++ chars, own ++ t.spans.map (·.shift offset) ++ spans)

/-- The line with its tabs filled up with blanks. -/
def expandTabs (t : StyledText) : StyledText :=
  let tabs := offsetsOf '\t' 0 t.chars
  if tabs.isEmpty then t
  else
    let pieces := (t.divide (tabs.map (· + 1))).filter fun p => !p.chars.isEmpty
    let (chars, spans) := joinFrom 0 (expandPieces 0 pieces)
    { t with chars, spans }

/-! ### Runs -/

/-- The **runs** of a line: its characters between the places where styles begin or end. -/
def runs (t : StyledText) : Line :=
  let offsets := (t.spans.flatMap fun s => [s.start, s.stop]).mergeSort
  ((cutAt 0 t.chars offsets).map Prod.snd).filter fun run => !run.isEmpty

end StyledText

end TreeLint.Console
