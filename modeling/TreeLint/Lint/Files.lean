import TreeLint.File.Resolve
import TreeLint.Lint.Trees
import TreeLint.Settings.Load
import TreeLint.Tree.Load

/-!
# Linting Files

The files that the arguments name are loaded and linted one after another. A file that cannot
be read, is no JSON, or holds a malformed tree fails its own report only
(`LoadFault.isContained`). A few faults end the whole run instead: bytes that are no text,
numbers that are too long, and positions without an order.
-/

namespace TreeLint

/-- Whether a fault stays with the file that has it. -/
def LoadFault.isContained : LoadFault → Bool
  | .unreadable .. | .invalidJson .. | .tooDeep _ | .build (.malformed _) => true
  | .unnameable | .undecodable _ | .tooManyDigits _ | .build (.unordered _) => false

/-- Why a run over files has no result. -/
inductive RunFault where
  | settings (fault : SettingsFault)
  /-- A rule is named that nobody knows. -/
  | rules (fault : ConfigFault)
  | resolve (fault : ResolveFault)
  | load (fault : LoadFault)
  | check (fault : CheckFault)
  deriving DecidableEq, Repr

/-- The text of the fault. -/
def RunFault.message : RunFault → String
  | .settings fault => fault.message
  | .rules fault => fault.message
  | .resolve fault => fault.message
  | .load fault => fault.message
  | .check fault => fault.message

/-- Whether a fault is one that users cause: in the settings, in the arguments, or in the values
of a file. Any other shows something that was not thought of. -/
def RunFault.isUsersFault : RunFault → Bool
  | .settings (.config _) | .settings (.undecodable _) => true
  | .settings (.unreadable ..) | .settings .tooDeep => false
  | .settings (.scalar fault) => fault.isValueFault
  | .rules _ => true
  | .resolve (.noFiles _) | .resolve .unnameable => true
  | .resolve (.unusable ..) => false
  | .load (.build _) => false
  | .load _ => true
  | .check .offLevel => true
  | .check _ => false

/-- The path of a file in its report: relative to the base path where it lies below it. -/
def reportPath (base path : Path) : String := ((path.relativeTo? base).getD path).text

namespace Linter

/-- The report on one file, and what was logged. -/
def lintFile (l : Linter) (sources : Sources) (base path : Path) :
    List LogEntry × Except RunFault FileReport :=
  let shown := reportPath base path
  match sources.loadTree path with
  | .ok root =>
    let (log, report) := l.lintTree shown (.node root)
    (log, report.mapError .check)
  | .error fault =>
    if fault.isContained then
      ([skipEntry fileSource shown fault.message],
        .ok { path := shown, error := some fault.message })
    else ([], .error (.load fault))

/-- The reports on several files, and what was logged. -/
def lintPaths (l : Linter) (sources : Sources) (base : Path) :
    List Path → List LogEntry × Except RunFault (List FileReport)
  | [] => ([], .ok [])
  | path :: rest =>
    match l.lintFile sources base path with
    | (log, .error fault) => (log, .error fault)
    | (log, .ok report) =>
      let (more, reports) := l.lintPaths sources base rest
      (log ++ more, reports.map (report :: ·))

/-- The **result for the files that arguments name**, and what was logged. -/
def lintFiles (l : Linter) (sources : Sources) (base : Path) (arguments : List String) :
    List LogEntry × Except RunFault LintResult :=
  match sources.resolve base arguments with
  | .error fault => ([], .error (.resolve fault))
  | .ok paths =>
    let (log, reports) := l.lintPaths sources base paths
    (log, reports.map LintResult.ofReports)

end Linter

/-- The **result of a run** over the files that arguments name, with the settings that are loaded
for it, restricted to the rules that `only` names unless it is empty; and what was logged. -/
def Sources.lint (sources : Sources) (registry : Registry) (config : Option Path)
    (base : Path) (only arguments : List String) : List LogEntry × Except RunFault LintResult :=
  match sources.loadSettings config with
  | .error fault => ([], .error (.settings fault))
  | .ok settings =>
    match Linter.ofSettings registry settings only with
    | .error fault => ([], .error (.rules fault))
    | .ok linter => linter.lintFiles sources base arguments

end TreeLint
