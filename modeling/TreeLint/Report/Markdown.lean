import TreeLint.Report.Position

/-!
# Reports in Markdown

A document with a summary, the files that could not be analysed, and one section for every
diagnostic.
-/

namespace TreeLint

/-- A place after the path of its file. -/
def Place.after (path : String) : Place → String
  | .unknown => path
  | .line l => s!"{path}:{l}"
  | .point l c => s!"{path}:{l}:{c}"

/-- The word for a severity in a heading. -/
def Severity.heading : Severity → String
  | .error => "ERROR"
  | .warning => "WARN"

namespace Markdown

/-- The lines on a file that could not be analysed. -/
def failureLine (r : FileReport) : String :=
  let error := r.error.getD ""
  s!"- `{r.path}`: {error}"

/-- The lines on the files that could not be analysed. -/
def failureLines (failed : List FileReport) : List String :=
  if failed.isEmpty then [] else ["## Failed Files", ""] ++ failed.map failureLine ++ [""]

/-- The section on one diagnostic. -/
def diagnosticLines (path : String) (d : Diagnostic) : Except PositionFault (List String) := do
  let place ← d.place
  return [s!"### [{d.severity.heading}] {place.after path}", "",
    s!"{d.message} (`{d.ruleName}`)", ""]

/-- The sections on one file. -/
def fileLines (r : FileReport) : Except PositionFault (List String) := do
  return (← r.diagnostics.mapM (diagnosticLines r.path)).flatten

end Markdown

/-- The **Markdown report**. -/
def LintResult.markdown (r : LintResult) : Except PositionFault String := do
  let problems ← r.files.mapM Markdown.fileLines
  let nothing := if r.diagnostics.isEmpty then ["No problems found.", ""] else []
  let lines := ["# Lint Report", "", "## Summary", "", r.summary, ""] ++
    Markdown.failureLines r.failedFiles ++ ["## Problems", ""] ++ nothing ++ problems.flatten
  return "\n".intercalate lines

end TreeLint
