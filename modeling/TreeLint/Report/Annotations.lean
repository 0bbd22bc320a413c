import TreeLint.Report.Position

/-!
# Reports as Workflow Annotations

One command line per problem, for a build service that shows it beside the source. A message
stays on its line: the percent sign and line ends are written as percent codes.
-/

namespace TreeLint

namespace Annotations

/-- A text with a code in the place of every occurrence of a character. -/
def replaceChar (c : Char) (code text : String) : String :=
  String.ofList (text.toList.flatMap fun d => if d = c then code.toList else [d])

/-- A message on one line. The percent sign comes first, since the codes are written with it. -/
def escape (message : String) : String :=
  replaceChar '\n' "%0A" (replaceChar '\r' "%0D" (replaceChar '%' "%25" message))

/-- The word for a severity in a command. -/
def level : Severity → String
  | .error => "error"
  | .warning => "warning"

/-- The properties that say where a problem is. -/
def place (path : String) : Place → String
  | .unknown => s!"file={path}"
  | .line l => s!"file={path},line={l}"
  | .point l c => s!"file={path},line={l},col={c}"

/-- The command for a file that could not be analysed, unless it has nothing to say. -/
def failureLines (r : FileReport) : List String :=
  match r.error with
  | none => []
  | some error => if error.isEmpty then [] else [s!"::error file={r.path}::{escape error}"]

/-- The command for a diagnostic. -/
def diagnosticLine (path : String) (d : Diagnostic) : Except PositionFault String := do
  let place := place path (← d.place)
  let message := escape s!"[{d.ruleName}] {d.message}"
  return s!"::{level d.severity} {place}::{message}"

/-- The commands for a file. -/
def fileLines (r : FileReport) : Except PositionFault (List String) := do
  return failureLines r ++ (← r.diagnostics.mapM (diagnosticLine r.path))

end Annotations

/-- The **report as annotations**. -/
def LintResult.annotations (r : LintResult) : Except PositionFault String := do
  let lines ← r.files.mapM Annotations.fileLines
  return "\n".intercalate lines.flatten

end TreeLint
