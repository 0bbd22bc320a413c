import TreeLint.Json.Order
import TreeLint.Rule.Registry
import TreeLint.Sorting

/-!
# Checking One Tree

`checkTree` runs a list of rules over one tree in a single walk and gives all their
diagnostics in source order. Every tree gets rules of its own, so nothing carries over from
one file to the next.
-/

namespace TreeLint

/-- Why a tree could not be checked. -/
inductive CheckFault where
  | malformed (fault : Malformed)
  /-- Two diagnostics have positions without a common order. -/
  | unordered (fault : Incomparable)
  /-- A rule that is switched off was to be run. -/
  | offLevel
  deriving DecidableEq, Repr

/-- The text of the fault. -/
def CheckFault.message : CheckFault → String
  | .malformed fault => fault.message
  | .unordered fault => fault.message
  | .offLevel => "'off' is not a valid Severity"

/-- The severity of a rule that runs at a level. -/
def Level.severity : Level → Except CheckFault Severity
  | .error => .ok .error
  | .warn => .ok .warning
  | .off => .error .offLevel

/-- A registered rule, made for one tree. -/
def RuleSpec.start (settings : Settings) (spec : RuleSpec) : Except CheckFault RuleRun :=
  match (settings.levelFor spec.id spec.name).severity with
  | .error fault => .error fault
  | .ok severity => .ok { rule := spec.build settings, severity }

/-- Diagnostics by line and column; those at one position stay as they are. -/
def sortDiagnostics (ds : List Diagnostic) : Except Incomparable (List Diagnostic) :=
  sortBy? (fun a b => a.position.before b.position) ds

/-- The **diagnostics of a tree**. -/
def checkTree (settings : Settings) (specs : List RuleSpec) (root : Root) :
    Except CheckFault (List Diagnostic) := do
  let runs ← specs.mapM (RuleSpec.start settings)
  let outcome := RuleRun.walkAll runs root
  match outcome.fault with
  | some fault => .error (.malformed fault)
  | none => (sortDiagnostics (outcome.state.flatMap RuleRun.reported)).mapError .unordered

end TreeLint
