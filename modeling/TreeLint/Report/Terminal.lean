import TreeLint.Console.Printout
import TreeLint.File.System
import TreeLint.Report.Position

/-!
# Reports on the Terminal

First the files that could not be analysed, then a table for every file with diagnostics, then
the summary in a panel.

The title of a table links to its file, and paths, errors and the names of rules are read as
markup, so that they can end the report (`TerminalFault`).
-/

namespace TreeLint

open Console (Printout Column Table Content Display)

/-- Why a report was not printed to its end. -/
inductive TerminalFault where
  | position (fault : PositionFault)
  | console (fault : Console.Fault)
  /-- A path cannot be the path of any file. -/
  | unnameable
  deriving DecidableEq, Repr

/-- The text of the fault. -/
def TerminalFault.message : TerminalFault → String
  | .position fault => fault.message
  | .console fault => fault.message
  | .unnameable => "embedded null byte"

namespace Terminal

/-! ### Links to files -/

/-- Components without `.` and `..`, after those in `done`, which are in reverse. -/
def resolveParts (done : List String) : List String → List String
  | [] => done.reverse
  | part :: rest => resolveParts (if part = ".." then done.tail else part :: done) rest

/-- A byte in an address: as it stands if it needs no code. -/
def addressByte (b : UInt8) : List Char :=
  let c := Char.ofNat b.toNat
  if c.isAlphanum || ['_', '.', '-', '~', '/'].contains c then [c]
  else '%' :: (Text.hexPadded 2 b.toNat).map Char.toUpper

/-- The address of a file, for a current directory with the given components. -/
def address (current : List String) (path : Path) : String :=
  let parts := resolveParts [] (if path.isAbsolute then path.parts else current ++ path.parts)
  let text := "/" ++ "/".intercalate parts
  "file://" ++ String.ofList (text.toUTF8.toList.flatMap addressByte)

/-- The title of a file's table. -/
def title (current : List String) (path : String) : Except TerminalFault String :=
  if FileSystem.isNameable (.ofText path) then
    .ok ("[link=" ++ address current (.ofText path) ++ "]" ++ path ++ "[/link]")
  else .error .unnameable

/-! ### Tables -/

/-- The columns of a file's table. -/
def columns : List Column :=
  [⟨"Line", .fixed 8, .right⟩, ⟨"Severity", .fixed 8, .left⟩, ⟨"Problem", .free 40, .left⟩,
    ⟨"Rule", .fixed 28, .left⟩]

/-- The place of a diagnostic in a table; a column that is blank counts as zero. -/
def placeText (d : Diagnostic) : Except PositionFault String :=
  if d.line.isNull then .ok "-"
  else do
    let line ← positionText d.line
    let column ← positionText (← shiftColumn (if d.column.isBlank then .int 0 else d.column))
    return s!"{line}:{column}"

/-- A row of a file's table, once the place in it is known. -/
def row (place : String) (d : Diagnostic) : List Content :=
  [.markup place, .verbatim d.severity.word, .verbatim d.message,
    .markup s!"[dim]{d.ruleId} {d.ruleName}[/dim]"]

/-- The table of a file. -/
def fileTable (display : Display) (current : List String) (r : FileReport) :
    Printout TerminalFault :=
  let table : Except TerminalFault Table := do
    let title ← title current r.path
    let rows ← r.diagnostics.mapM fun d => do
      return row (← (placeText d).mapError .position) d
    return { title := some title, columns, rows }
  match table with
  | .error fault => .failed fault
  | .ok table =>
    (Printout.blankLine display ++ Printout.ofLines display (table.lines display)).mapFault .console

/-! ### The report -/

/-- The markup of the line on a file that could not be analysed. -/
def failureMarkup (path error : String) : String :=
  "[red]Could not analyse " ++ path ++ ":[/red] " ++ error

/-- The line on a file that could not be analysed. -/
def failure (display : Display) (r : FileReport) : Printout TerminalFault :=
  (Printout.ofMarkup display (failureMarkup r.path (r.error.getD ""))).mapFault .console

/-- The tables of the files that have diagnostics, or the word that there is nothing to show. -/
def diagnostics (display : Display) (current : List String) (r : LintResult) :
    Printout TerminalFault :=
  if r.diagnostics.isEmpty then
    if r.failedFiles.isEmpty then
      (Printout.ofMarkup display "\n[green]No problems found.[/green]").mapFault .console
    else ⟨[], none⟩
  else .concat ((r.files.filter fun f => !f.diagnostics.isEmpty).map (fileTable display current))

/-- The panel with the summary. -/
def summary (display : Display) (r : LintResult) : Printout TerminalFault :=
  (Printout.blankLine display ++ Printout.ofLines display
    (Console.panelLines display "cylint" (.markup r.summary))).mapFault .console

end Terminal

/-- The **report on the terminal**, for a display and a current directory with the given
components. -/
def LintResult.terminal (display : Display) (current : List String) (r : LintResult) :
    Printout TerminalFault :=
  .concat (r.failedFiles.map (Terminal.failure display)) ++
    Terminal.diagnostics display current r ++ Terminal.summary display r

end TreeLint
