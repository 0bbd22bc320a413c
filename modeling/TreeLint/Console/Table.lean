import TreeLint.Console.Content
import TreeLint.Number.Total

/-!
# Tables

A table has a heading, rows, and lines around them. A column is either **fixed**, with a width
of its own, or **free**: as wide as its longest line, but not narrower than it says. When the
table is too wide, free columns give way first; if that is not enough, all columns shrink alike,
and what is still too wide is cut off at the edge of the display.

Every cell has one blank on either side of its text.

## What is assumed

The frame, the blanks beside a text, and the order in which columns give way are how the console
draws any table. What a report chooses is the columns, and what is in the rows.
-/

namespace TreeLint.Console

/-- How wide the texts of a column may be. -/
inductive ColumnSize where
  | fixed (width : Nat)
  | free (least : Nat)
  deriving DecidableEq, Repr

/-- A column of a table. -/
structure Column where
  heading : String
  size : ColumnSize
  justify : Justify := .left

/-- A table: its title, which is markup, its columns, and its rows of texts. -/
structure Table where
  title : Option String := none
  columns : List Column
  rows : List (List Content)

/-- The blanks beside the text of a cell. -/
def cellPadding : Nat := 2

/-- The greatest number of cells in a line of a text. -/
def longestLine (text : List Char) : Nat :=
  ((Text.splitAll Text.isLineEnd text).map cells).foldl max 0

namespace Column

/-- How wide a column wants to be within a limit, given the texts of its cells. A free column
that has to be wider than the limit is. The texts are read only if their widths matter. -/
def measure (pictures : Pictures) (column : Column) (limit : Nat) (texts : List Content) :
    Except Fault Nat :=
  if limit = 0 then .ok 0
  else
    match column.size with
    | .fixed width => .ok (min (width + cellPadding) limit)
    | .free least =>
      if limit ≤ cellPadding then .ok (max limit (least + cellPadding))
      else do
        let texts ← texts.mapM (Content.text pictures)
        let widest := texts.map fun t => min (longestLine t.chars + cellPadding) limit
        return max (widest.foldl max 0) (least + cellPadding)

/-- Whether the column gives way when the table is too wide. -/
def isFree (column : Column) : Bool :=
  match column.size with
  | .fixed _ => false
  | .free _ => true

end Column

/-! ### Widths -/

/-- The widths after free columns have given up `excess` cells as far as they can. -/
def shrinkFree (excess : Nat) : List (Column × Nat) → List (Column × Nat)
  | [] => []
  | (column, width) :: rest =>
    if column.isFree then (column, width - excess) :: shrinkFree (excess - width) rest
    else (column, width) :: shrinkFree excess rest

/-- The quotient rounded to the nearest number, to the even one of two. -/
def nearestQuotient (n d : Nat) : Nat :=
  let q := n / d
  let twice := 2 * (n % d)
  if d < twice || (twice = d && q % 2 = 1) then q + 1 else q

/-- The widths after `excess` cells have been taken from all columns that have any, the same
number from each as far as it divides. `count` says how many of them have any. -/
def shrinkAll (excess count : Nat) : List Nat → List Nat
  | [] => []
  | 0 :: rest => 0 :: shrinkAll excess count rest
  | width :: rest =>
    let given := min width (nearestQuotient excess count)
    (width - given) :: shrinkAll (excess - given) (count - 1) rest

namespace Table

/-- The lines between and around the columns. -/
def borderWidth (t : Table) : Nat := t.columns.length + 1

/-- The texts of all cells of a column, its heading first. -/
def columnTexts (t : Table) (index : Nat) (column : Column) : List Content :=
  .markup column.heading :: t.rows.map fun row => row.getD index (.verbatim "")

/-- The columns with the texts of their cells. -/
def columnsWithTexts (t : Table) : List (Column × List Content) :=
  t.columns.zipIdx.map fun (column, index) => (column, t.columnTexts index column)

/-- The widths of the columns, blanks included, on a display. -/
def widths (t : Table) (display : Display) : Except Fault (List Nat) := do
  let limit := display.width - t.borderWidth
  let columns := t.columnsWithTexts
  let wanted ← columns.mapM fun (column, texts) => do
    return max 1 (← column.measure display.pictures limit texts)
  if total wanted ≤ limit then return wanted
  let shrunk := (shrinkFree (total wanted - limit) (t.columns.zip wanted)).map Prod.snd
  let shrunk :=
    if total shrunk ≤ limit then shrunk
    else shrinkAll (total shrunk - limit) (shrunk.countP (· != 0)) shrunk
  (columns.zip shrunk).mapM fun ((column, texts), width) =>
    column.measure display.pictures width texts

end Table

/-! ### Rows -/

/-- The characters of a rule across the table: its ends, its stroke, and what stands where it
meets a line between columns. -/
structure Stroke where
  left : Char
  line : Char
  cross : Char
  right : Char

/-- The rule above the heading. -/
def topStroke : Stroke := ⟨'┏', '━', '┳', '┓'⟩

/-- The rule below the heading. -/
def headingStroke : Stroke := ⟨'┡', '━', '╇', '┩'⟩

/-- The rule below the last row. -/
def bottomStroke : Stroke := ⟨'└', '─', '┴', '┘'⟩

/-- A rule across columns of the given widths. -/
def Stroke.draw (s : Stroke) (widths : List Nat) : Line :=
  [s.left :: ([s.cross].intercalate (widths.map fun w => List.replicate w s.line) ++ [s.right])]

/-- A row of cells on one line, with bars between them. -/
def barredLine (bar : Char) (cells : List Line) : Line :=
  [bar] :: ([[bar]].intercalate cells ++ [[bar]])

/-- The lines of a row of cells with bars between them. The heading hangs down to the rule below
it, so its cells are filled up above; other rows are filled up below. -/
def rowLines (bar : Char) (hanging : Bool) (widths : List Nat) (row : List (List Line)) :
    Except Fault (List Line) := do
  let height := max 1 ((row.map List.length).foldl max 0)
  let filled ← (widths.zip row).mapM fun (width, lines) => do
    let lines ← lines.mapM fun line => (line.fill width).mapError .cut
    let filler := List.replicate (height - lines.length) [blanks width]
    return if hanging then filler ++ lines else lines ++ filler
  return (List.range height).map fun i =>
    barredLine bar (filled.map fun lines => lines.getD i [])

namespace Table

/-- The cells of a row, laid out. -/
def layOut (pictures : Pictures) (t : Table) (widths : List Nat) (row : List Content) :
    Except Fault (List (List Line)) :=
  (t.columns.zip (widths.zip row)).mapM fun (column, width, text) =>
    text.paddedLines pictures column.justify .ellipsis width

/-- The lines of the title, in a width. -/
def titleLines (pictures : Pictures) (t : Table) (width : Nat) : Except Fault (List Line) :=
  match t.title with
  | none => .ok []
  | some title => do
    let text : StyledText := { (← ofMarkup pictures title.toList) with isStyled := true }
    text.lines .left .fold width

/-- The **lines of a table** on a display. -/
def lines (t : Table) (display : Display) : Except Fault (List Line) := do
  let pictures := display.pictures
  let widths ← t.widths display
  let title ← t.titleLines pictures (total widths + t.borderWidth)
  let headings := t.columns.map fun column => Content.markup column.heading
  let heading ← rowLines '┃' true widths (← t.layOut pictures widths headings)
  let rows ← t.rows.mapM fun row => do rowLines '│' false widths (← t.layOut pictures widths row)
  return title ++ topStroke.draw widths ::
    (heading ++ headingStroke.draw widths :: (rows.flatten ++ [bottomStroke.draw widths]))

end Table

end TreeLint.Console
