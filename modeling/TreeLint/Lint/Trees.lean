import TreeLint.Check
import TreeLint.Report.Basic

/-!
# Linting Trees

A `Linter` is settings together with the rules that they leave enabled. It checks trees one
by one and keeps a log of what it does. A malformed tree fails only its own report.
-/

namespace TreeLint

/-- How important a log entry is. -/
inductive LogLevel where
  | debug
  | warning
  deriving DecidableEq, Repr

/-- The word for a log level. -/
def LogLevel.word : LogLevel → String
  | .debug => "DEBUG"
  | .warning => "WARNING"

/-- An entry of the log: how important it is, which part of the run made it, and what it
says. -/
structure LogEntry where
  level : LogLevel
  source : String
  message : String
  deriving DecidableEq, Repr

/-- The line of a log entry. -/
def LogEntry.text (e : LogEntry) : String := s!"{e.level.word} {e.source}: {e.message}"

/-- The name of the part that checks trees, in the log. -/
def checkSource : String := "cylint.rules.engine"

/-- The name of the part that loads files, in the log. -/
def fileSource : String := "cylint.lint"

/-- The entry on a file that could not be analysed. -/
def skipEntry (source path message : String) : LogEntry :=
  ⟨.warning, source, s!"Skipping {path}: {message}"⟩

/-- Settings and the rules that they leave enabled. -/
structure Linter where
  settings : Settings
  specs : List RuleSpec

namespace Linter

/-- The linter of some settings, restricted to the rules that `only` names unless it is
empty. -/
def ofSettings (registry : Registry) (settings : Settings) (only : List String) :
    Except ConfigFault Linter := do
  return ⟨settings, ← registry.enabled settings only⟩

/-- The ids of the rules that run. -/
def ruleIds (l : Linter) : List String := l.specs.map RuleSpec.id

/-- The log entry at the start of a tree. -/
def startEntry (l : Linter) (path : String) : LogEntry :=
  let rules := ", ".intercalate l.ruleIds
  ⟨.debug, checkSource, s!"Linting {path} with rules {rules}"⟩

/-- The report on one tree, and what was logged. A malformed tree gives a failed report. -/
def lintTree (l : Linter) (path : String) (root : Root) :
    List LogEntry × Except CheckFault FileReport :=
  match checkTree l.settings l.specs root with
  | .ok diagnostics => ([l.startEntry path], .ok { path, diagnostics })
  | .error (.malformed fault) =>
    ([l.startEntry path, skipEntry checkSource path fault.message],
      .ok { path, error := some fault.message })
  | .error fault => ([l.startEntry path], .error fault)

/-- The reports on several trees, and what was logged. -/
def lintReports (l : Linter) :
    List (String × Root) → List LogEntry × Except CheckFault (List FileReport)
  | [] => ([], .ok [])
  | (path, root) :: rest =>
    match l.lintTree path root with
    | (log, .error fault) => (log, .error fault)
    | (log, .ok report) =>
      let (more, reports) := l.lintReports rest
      (log ++ more, reports.map (report :: ·))

/-- The result for several trees, and what was logged. -/
def lintTrees (l : Linter) (trees : List (String × Root)) :
    List LogEntry × Except CheckFault LintResult :=
  let (log, reports) := l.lintReports trees
  (log, reports.map LintResult.ofReports)

end Linter

end TreeLint
