import TreeLint.Rule.Basic

/-!
# Clear Before Type

A call `.type(...)` must be chained directly to a call `.clear()`, so that the input starts
empty. Only the direct receiver is looked at; a value that went through a variable is not
followed, and computed access such as `x["type"]()` names no method.
-/

namespace TreeLint.ClearBeforeType

/-- The name of the method that a node calls: the identifier after the dot, for a call whose
callee is a member expression that is not computed. -/
def methodName? (n : Node) : Except Malformed (Option String) :=
  if n.kind = .callExpression then do
    let callee ← n.requireCallee
    if callee.kind = .memberExpression ∧ callee.modifiers.isComputed = false then do
      let member ← callee.requireMember
      return if member.isIdentifier then member.name else none
    else return none
  else return none

/-- The report. -/
def message : String := "Call '.clear()' directly before '.type(...)' so the input starts empty."

/-- What is found at a call. -/
def check (n : Node) : Except Malformed (List Finding) := do
  if (← methodName? n) = some "type" then
    let callee ← n.requireCallee
    let before ← match callee.receiver with
      | some receiver => methodName? receiver
      | none => .ok none
    if before = some "clear" then return []
    else return [⟨n, .missingClearBeforeType, message⟩]
  else return []

/-- The rule. -/
def rule : Rule where
  id := "CY002"
  name := "require-clear-before-type"
  description := "Require .clear() directly before .type(...) in a Cypress chain"
  listens := [.callExpression]
  check := check
  finish _ := []

end TreeLint.ClearBeforeType
