import TreeLint.Report.Annotations
import TreeLint.Report.Markdown
import TreeLint.Report.Terminal

/-!
# Formats of Reports

A report is either laid out on a terminal or written as a text, which is the same on every
display. As data it is nested as deep as the positions in it are, which may be too deep for the
machine (`Json.print`).
-/

namespace TreeLint

open Console (Printout Display)

/-- A format whose reports are texts. -/
inductive TextFormat where
  | json
  | markdown
  | annotations
  deriving DecidableEq, Repr

/-- A format of reports. -/
inductive Format where
  | terminal
  | text (format : TextFormat)
  deriving DecidableEq, Repr

/-- A name that no format has. -/
structure UnknownFormat where
  name : String
  deriving DecidableEq, Repr

/-- The text of the fault. -/
def UnknownFormat.message (e : UnknownFormat) : String := s!"Unknown format: {e.name}"

/-- The format with a given name. -/
def Format.ofName : String → Except UnknownFormat Format
  | "terminal" => .ok .terminal
  | "json" => .ok (.text .json)
  | "markdown" => .ok (.text .markdown)
  | "github" => .ok (.text .annotations)
  | name => .error ⟨name⟩

/-- The report as a text, on a machine that reaches some values to their depth. -/
def LintResult.write (r : LintResult) (reaches : Json → Bool) :
    TextFormat → Except PositionFault String
  | .json => (r.json reaches).mapError .ofPrinting
  | .markdown => r.markdown
  | .annotations => r.annotations

/-- The **report as it is printed**. A text without characters is not printed at all. -/
def LintResult.print (r : LintResult) (reaches : Json → Bool) (display : Display)
    (current : List String) : Format → Printout TerminalFault
  | .terminal => r.terminal display current
  | .text format =>
    match r.write reaches format with
    | .error fault => .failed (.position fault)
    | .ok text =>
      if text.isEmpty then ⟨[], none⟩ else (Printout.ofText display text).mapFault .console

end TreeLint
