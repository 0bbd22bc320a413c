import TreeLint.Diagnostic
import TreeLint.Json.Printer

/-!
# Reports

The outcome of a run: one report per file, and a summary line that counts them. A file that
could not be analysed has an error and no diagnostics; the other files do not notice.

As data, for other programs, a result is everything that a run found. Positions are written exactly
as the tree has them: columns count from zero, and a position that is missing is `null`.
-/

namespace TreeLint

/-- The outcome for one file. -/
structure FileReport where
  path : String
  diagnostics : List Diagnostic := []
  error : Option String := none

/-- Whether the file could not be analysed. -/
def FileReport.failed (r : FileReport) : Bool := r.error.isSome

/-- The outcome for a set of files. -/
structure LintResult where
  files : List FileReport
  summary : String

namespace LintResult

/-- All diagnostics, in the order of the files. -/
def diagnostics (r : LintResult) : List Diagnostic := r.files.flatMap FileReport.diagnostics

/-- The reports on files that could not be analysed. -/
def failedFiles (r : LintResult) : List FileReport := r.files.filter FileReport.failed

/-- How many diagnostics have a severity. -/
def countOf (severity : Severity) (ds : List Diagnostic) : Nat :=
  ds.countP fun d => d.severity == severity

/-- How many errors there are. -/
def errorCount (r : LintResult) : Nat := countOf .error r.diagnostics

/-- How many warnings there are. -/
def warningCount (r : LintResult) : Nat := countOf .warning r.diagnostics

/-- Whether the run failed: an error was found, or a file could not be analysed. -/
def hasErrors (r : LintResult) : Bool := decide (0 < r.errorCount) || !r.failedFiles.isEmpty

end LintResult

/-! ### The summary line -/

/-- A count with its noun, in the plural unless it is one. -/
def counted (n : Nat) (noun : String) : String :=
  let plural := if n = 1 then "" else "s"
  s!"{n} {noun}{plural}"

/-- The **summary** of a list of reports. -/
def summarize (reports : List FileReport) : String :=
  let diagnostics := reports.flatMap FileReport.diagnostics
  let failed := reports.countP FileReport.failed
  if diagnostics.isEmpty && failed = 0 then "No problems found."
  else
    let errors := LintResult.countOf .error diagnostics
    let warnings := LintResult.countOf .warning diagnostics
    let parts := (if errors = 0 then [] else [counted errors "error"]) ++
      (if warnings = 0 then [] else [counted warnings "warning"])
    let split := if parts.isEmpty then "" else " (" ++ ", ".intercalate parts ++ ")"
    let unread :=
      if failed = 0 then "" else " " ++ counted failed "file" ++ " could not be analysed."
    "Found " ++ counted diagnostics.length "problem" ++ split ++ " in " ++
      counted reports.length "file" ++ "." ++ unread

/-- The result with the summary of its reports. -/
def LintResult.ofReports (reports : List FileReport) : LintResult := ⟨reports, summarize reports⟩

/-! ### Results as data -/

/-- A diagnostic as data. -/
def Diagnostic.data (d : Diagnostic) : Json :=
  .obj () [("ruleId", .str d.ruleId), ("rule", .str d.ruleName), ("kind", .str d.violation.word),
    ("severity", .str d.severity.word), ("line", d.line), ("column", d.column),
    ("start", d.node.span.start), ("end", d.node.span.stop), ("message", .str d.message)]

/-- A file's report as data. -/
def FileReport.data (r : FileReport) : Json :=
  .obj () [("path", .str r.path), ("error", (r.error.map .str).getD .null),
    ("diagnostics", .arr (r.diagnostics.map Diagnostic.data))]

/-- A result as data. -/
def LintResult.data (r : LintResult) : Json :=
  .obj () [("summary", .str r.summary), ("errorCount", .int r.errorCount),
    ("warningCount", .int r.warningCount), ("files", .arr (r.files.map FileReport.data))]

/-- The **JSON report**, on a machine that reaches some values to their depth. -/
def LintResult.json (reaches : Json → Bool) (r : LintResult) : Except Json.PrintFault String :=
  r.data.print reaches

end TreeLint
