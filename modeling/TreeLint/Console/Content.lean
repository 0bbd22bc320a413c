import TreeLint.Console.Markup
import TreeLint.Console.Wrap

/-!
# What Is Laid Out

The texts of tables and panels are either markup or taken as they stand. Markup is read when it
is laid out, and **nothing is laid out where there is no room**: markup that no one sees cannot
be at fault.

A panel is a text in a frame as wide as the display, with a title in the middle of the line
above it.
-/

namespace TreeLint.Console

/-- A text to be laid out. -/
inductive Content where
  | markup (source : String)
  | verbatim (text : String)

namespace Content

/-- The text with its styles. -/
def text (pictures : Pictures) : Content → Except Fault StyledText
  | .markup source => ofMarkup pictures source.toList
  | .verbatim text => .ok { chars := printable text.toList }

/-- The lines of the text, each filled up to the width. -/
def lines (pictures : Pictures) (how : Justify) (overflow : Overflow) (width : Nat)
    (c : Content) : Except Fault (List Line) :=
  if width = 0 then .ok []
  else do
    let lines ← (← c.text pictures).lines how overflow width
    lines.mapM fun line => (line.fill width).mapError .cut

/-- The lines of the text with a blank on either side, each filled up to the width. -/
def paddedLines (pictures : Pictures) (how : Justify) (overflow : Overflow) (width : Nat)
    (c : Content) : Except Fault (List Line) := do
  let lines ← c.lines pictures how overflow (width - 2)
  lines.mapM fun line => (Line.fill width (blanks 1 :: line ++ [blanks 1])).mapError .cut

end Content

/-! ### Panels -/

/-- The line above a panel, with a title that has no marks and no wide characters. On a display
too narrow for it the title is left out. -/
def panelTop (width : Nat) (title : String) : Line :=
  if width ≤ 4 then ['╭' :: (List.replicate (width - 2) '─' ++ ['╮'])]
  else
    let room := width - 4
    let title := (' ' :: (title.toList ++ [' '])).take room
    let excess := room - title.length
    let left := List.replicate (excess / 2) '─'
    let right := List.replicate (excess - excess / 2) '─'
    [['╭', '─'], left, title, right, ['─', '╮']]

/-- The **lines of a panel** on a display. -/
def panelLines (display : Display) (title : String) (text : Content) :
    Except Fault (List Line) := do
  let width := display.width
  let body ← text.paddedLines display.pictures .ragged .fold (width - 2)
  return panelTop width title ::
    (body.map (fun line => ['│'] :: line ++ [['│']]) ++
      [['╰' :: (List.replicate (width - 2) '─' ++ ['╯'])]])

end TreeLint.Console
