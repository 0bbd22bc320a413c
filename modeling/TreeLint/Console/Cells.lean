import TreeLint.Console.Fault
import TreeLint.Number.Total
import TreeLint.Text.Width

/-!
# Cells and Lines

The text of a line is measured in cells (`cells`). A joiner hides the character after it, and a
request to draw a character as a picture may widen it by a cell.

What is drawn in one place is a **cluster**: a character with the marks that follow it, with
what a joiner glues to it, and with the requests to draw it as a picture. A text is cut only
between clusters. A mark, a joiner or a request at the start of a text has nothing to belong to
and is a cluster of its own; that is where the widths of the clusters and the cells of the text
can differ.

What is printed in one style is a run, and a line is a row of runs. Every run is measured on its
own, so that a joiner at the end of one does not reach into the next.

## What is assumed

How wide a character is drawn is a table (`Text.charWidth`), and so is which characters a request
widens (`Text.isWidenable`). A display that draws a character wider or narrower than its entry says
gets lines of another length.
-/

namespace TreeLint.Console

/-- The character that glues its two neighbours. -/
def joiner : Char := '\u200d'

/-- The character that asks for the one before it to be drawn as a picture. -/
def pictureRequest : Char := '\ufe0f'

/-! ### Measuring -/

/-- The cells that a request adds to the character that was measured last. -/
def requestedCells (base : Option Char) : Nat :=
  match base with
  | some b => if Text.isWidenable b then 1 else 0
  | none => 0

/-- How many cells a text takes, after `n` cells. The character that was measured last can be
widened while `base` holds it. -/
def cellsFrom (n : Nat) (base : Option Char) : List Char → Nat
  | [] => n
  | c :: rest =>
    if c = joiner then
      match rest with
      | [] => n
      | _ :: rest => cellsFrom n base rest
    else if c = pictureRequest then cellsFrom (n + requestedCells base) none rest
    else
      let width := Text.charWidth c
      if width = 0 then cellsFrom n base rest else cellsFrom (n + width) (some c) rest

/-- How many **cells** a text takes. -/
def cells (cs : List Char) : Nat := cellsFrom 0 none cs

/-- A text of blanks. -/
def blanks (n : Nat) : List Char := List.replicate n ' '

/-! ### Clusters -/

/-- Characters that are drawn in one place, in reverse, and how many cells they take. -/
structure Cluster where
  chars : List Char
  width : Nat

namespace Cluster

/-- The cluster with a character that takes no cells. -/
def attach (k : Cluster) (c : Char) : Cluster := { k with chars := c :: k.chars }

end Cluster

/-- The clusters of a text after the cluster `k` and those in `done`, which are in reverse. The
character that was measured last can be widened while `base` holds it. -/
def clustersFrom (done : List Cluster) (k : Cluster) (base : Option Char) :
    List Char → List Cluster
  | [] => (k :: done).reverse
  | c :: rest =>
    if c = joiner then
      match rest with
      | [] => (k.attach c :: done).reverse
      | d :: rest => clustersFrom done ((k.attach c).attach d) base rest
    else if c = pictureRequest then
      clustersFrom done ⟨c :: k.chars, k.width + requestedCells base⟩ none rest
    else
      let width := Text.charWidth c
      if width = 0 then clustersFrom done (k.attach c) base rest
      else clustersFrom (k :: done) ⟨[c], width⟩ (some c) rest

/-- The **clusters** of a text. -/
def clusters : List Char → List Cluster
  | [] => []
  | c :: rest =>
    let width := Text.charWidth c
    clustersFrom [] ⟨[c], width⟩ (if width = 0 then none else some c) rest

/-- The characters of clusters. -/
def flatten (ks : List Cluster) : List Char := ks.flatMap fun k => k.chars.reverse

/-- How many cells clusters take. -/
def totalWidth (ks : List Cluster) : Nat := ks.foldl (fun n k => n + k.width) 0

/-! ### Cutting -/

/-- The characters of the clusters that fit into `room` cells; a blank stands for the half of a
wide one. -/
def takeCells (room : Nat) : List Cluster → List Char
  | [] => []
  | k :: rest =>
    if room = 0 then []
    else if k.width ≤ room then k.chars.reverse ++ takeCells (room - k.width) rest
    else blanks room

/-- The text up to a cell before its end. -/
def cut (room : Nat) (cs : List Char) : Except CutFault (List Char) :=
  if room = 0 then .ok []
  else
    let ks := clusters cs
    let total := totalWidth ks
    if total = 0 then .error .nothingDrawn
    else if total < room then .error .pastEnd
    else if total = room then .ok cs
    else .ok (takeCells room ks)

/-- The text **cut or filled up** to a number of cells. -/
def fit (width : Nat) (cs : List Char) : Except CutFault (List Char) :=
  let size := cells cs
  if size ≤ width then .ok (cs ++ blanks (width - size)) else cut width cs

/-- The clusters in pieces of at most `width` cells, after the piece `piece` of `used` cells and
the pieces in `done`, all in reverse. Nothing is made of a last piece that takes no cells. -/
def chopFrom (width : Nat) (done : List (List Char)) (piece : List Cluster) (used : Nat) :
    List Cluster → List (List Char)
  | [] => (if used = 0 then done else flatten piece.reverse :: done).reverse
  | k :: rest =>
    if width < used + k.width then
      chopFrom width (flatten piece.reverse :: done) [k] k.width rest
    else chopFrom width done (k :: piece) (used + k.width) rest

/-- The text in pieces of at most `width` cells. The first piece is empty if not even the first
cluster fits. -/
def chop (width : Nat) (cs : List Char) : List (List Char) := chopFrom width [] [] 0 (clusters cs)

/-! ### Lines -/

/-- Characters in one style. -/
abbrev Run := List Char

/-- A **line** of runs. -/
abbrev Line := List Run

namespace Line

/-- How many cells the runs of a line take. -/
def width (line : Line) : Nat := total (line.map cells)

/-- The line cut off after some cells. A run that reaches up to the cut is the last one. -/
def crop : Nat → Line → Except CutFault Line
  | _, [] => .ok []
  | room, run :: rest =>
    if cells run < room then do return run :: (← crop (room - cells run) rest)
    else do return [← fit room run]

/-- The line, cut off if it takes more cells than there are. -/
def limit (room : Nat) (line : Line) : Except CutFault Line :=
  if room < line.width then crop room line else .ok line

/-- The line cut off or filled up with blanks. -/
def fill (room : Nat) (line : Line) : Except CutFault Line :=
  if line.width < room then .ok (line ++ [blanks (room - line.width)]) else limit room line

end Line

end TreeLint.Console
