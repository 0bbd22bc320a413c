import TreeLint.Tree.Node

/-!
# Diagnostics

A rule makes **findings**: a node, the kind of violation, and a message. Stamped with the
rule's identity and severity, a finding becomes a diagnostic of the report.
-/

namespace TreeLint

/-- How bad a diagnostic is. -/
inductive Severity where
  | error
  | warning
  deriving DecidableEq, Repr, Inhabited

/-- The word for a severity. -/
def Severity.word : Severity → String
  | .error => "error"
  | .warning => "warn"

/-- The violation that is reported. -/
inductive Violation where
  | missingSingleton
  | missingTeardown
  | missingClearBeforeType
  deriving DecidableEq, Repr, Inhabited

/-- The word for a violation. -/
def Violation.word : Violation → String
  | .missingSingleton => "missing-singleton"
  | .missingTeardown => "missing-teardown"
  | .missingClearBeforeType => "missing-clear-before-type"

/-- All violations. -/
def Violation.all : List Violation := [.missingSingleton, .missingTeardown, .missingClearBeforeType]

/-- The violation with a given word. -/
def Violation.ofWord? (word : String) : Option Violation := all.find? fun v => v.word == word

/-- What a rule found, anchored at a node. -/
structure Finding where
  node : Node
  violation : Violation
  message : String

/-- A finding with the rule that made it. -/
structure Diagnostic where
  node : Node
  violation : Violation
  message : String
  ruleId : String
  ruleName : String
  severity : Severity := .error

namespace Diagnostic

/-- The line of the anchor. -/
def line (d : Diagnostic) : Json := d.node.span.line

/-- The column of the anchor. -/
def column (d : Diagnostic) : Json := d.node.span.column

/-- Where diagnostics without a line are put: after every line that occurs. -/
def unknownLine : Int := 1000000000

/-- The key by which diagnostics are ordered: line and column, with zero for a column that
is blank. -/
def position (d : Diagnostic) : Json :=
  if d.line.isNull then .arr [.int unknownLine, .int 0]
  else .arr [d.line, if d.column.isBlank then .int 0 else d.column]

end Diagnostic

end TreeLint
