import TreeLint.Diagnostic
import TreeLint.Tree.Walk

/-!
# Rules

A rule looks at nodes of certain kinds as a walk enters them, and once more at the end, when
it can look back at all of them. It keeps no state of its own: what it has **seen** is kept
for it, so that a rule is two functions, one of a node and one of the nodes seen.

A `RuleRun` is a rule at work. Its record grows over several walks and survives a walk that
ends early; a node that the rule refuses leaves no trace in it.
-/

namespace TreeLint

/-- A lint rule. -/
structure Rule where
  id : String
  name : String
  description : String
  /-- The kinds of node that the rule looks at. -/
  listens : List Kind
  /-- What the rule finds at a node of these kinds. -/
  check : Node → Except Malformed (List Finding)
  /-- What the rule finds at the end, given all nodes that it saw, oldest first. -/
  finish : List Node → List Finding

/-- A rule at work, with what it has seen and reported so far. -/
structure RuleRun where
  rule : Rule
  severity : Severity
  seen : List Node := []
  reported : List Diagnostic := []

namespace RuleRun

/-- A finding of the rule as a diagnostic. -/
def stamp (run : RuleRun) (f : Finding) : Diagnostic where
  node := f.node
  violation := f.violation
  message := f.message
  ruleId := run.rule.id
  ruleName := run.rule.name
  severity := run.severity

/-- Let the rule look at a node. -/
def enter (run : RuleRun) (n : Node) : Except Malformed RuleRun :=
  match run.rule.check n with
  | .error fault => .error fault
  | .ok findings =>
    .ok { run with seen := run.seen ++ [n], reported := run.reported ++ findings.map run.stamp }

/-- Let the rule look back at the end of a walk. -/
def finish (run : RuleRun) : RuleRun :=
  { run with reported := run.reported ++ (run.rule.finish run.seen).map run.stamp }

/-- Let the rule at one place of a list look at a node. -/
def enterAt (i : Nat) (n : Node) (runs : List RuleRun) : Except Malformed (List RuleRun) :=
  match runs[i]? with
  | none => .ok runs
  | some run =>
    match run.enter n with
    | .error fault => .error fault
    | .ok run => .ok (runs.set i run)

/-- The listeners of several rules that share a walk. They are told in the order of the
list, each about the kinds it listens to. -/
def listeners (runs : List RuleRun) : Listeners (List RuleRun) where
  enter := runs.zipIdx.flatMap fun (run, i) => run.rule.listens.map fun kind => (kind, enterAt i)
  finish := runs.zipIdx.map fun (_, i) => fun runs => runs.modify i finish

/-- Walk a tree with several rules. -/
def walkAll (runs : List RuleRun) (root : Root) : Outcome (List RuleRun) :=
  (listeners runs).walk root runs

end RuleRun

end TreeLint
