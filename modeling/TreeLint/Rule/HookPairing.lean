import TreeLint.Rule.Basic
import TreeLint.Settings.Basic

/-!
# Teardown for Every Setup

A file that calls a setup hook with an inline function, such as `before(() => ...)`, must
also call the teardown hook of the pair that way, anywhere in the file. Whether the teardown
is missing is known only at the end, so nothing is reported before; then there is at most
one report for a pair, at the first setup call.

Of each pair the rule knows a `PairState`, which every call can change (`PairState.step`): the
setup calls so far, and whether there was a teardown call. What the calls so far have made of it
can be read off these calls (`PairState.foldl_step`).
-/

namespace TreeLint.HookPairing

/-- Whether the first argument of a call is an inline function. -/
def hasCallback (n : Node) : Bool :=
  match n.arguments with
  | first :: _ => first.isFunction
  | [] => false

/-- The name of the **hook call** that a node is: the callee is a bare identifier and the
first argument an inline function. -/
def hookName? (n : Node) : Option String :=
  match n.callee with
  | some callee => if callee.isIdentifier && hasCallback n then callee.name else none
  | none => none

/-- The report on a pair whose teardown is missing. -/
def message (pair : HookPair) : String :=
  s!"Found a '{pair.setup}(...)' function but no '{pair.teardown}(...)' function within " ++
    s!"current file. Add '{pair.teardown}(() => \x7b ... \x7d)' or disable a rule."

/-- What is known of a pair at some point of a walk. -/
structure PairState where
  pair : HookPair
  setupCalls : List Node := []
  teardownSeen : Bool := false

namespace PairState

/-- What is known after **one more call**. A pair of one name twice has its teardown called with
its setup. -/
def step (s : PairState) (n : Node) : PairState where
  pair := s.pair
  setupCalls := if hookName? n = some s.pair.setup then s.setupCalls ++ [n] else s.setupCalls
  teardownSeen := s.teardownSeen || hookName? n == some s.pair.teardown

/-- What is found if no call follows. -/
def findings (s : PairState) : List Finding :=
  match s.setupCalls with
  | [] => []
  | first :: _ => if s.teardownSeen then [] else [⟨first, .missingTeardown, message s.pair⟩]

/-- After **any calls** the setup calls among them are known, and whether one was a teardown
call. -/
theorem foldl_step (s : PairState) (calls : List Node) :
    calls.foldl step s =
      { pair := s.pair
        setupCalls := s.setupCalls ++ calls.filter fun n => hookName? n == some s.pair.setup
        teardownSeen := s.teardownSeen ||
          calls.any fun n => hookName? n == some s.pair.teardown } := by
  induction calls generalizing s with
  | nil => simp
  | cons n calls ih =>
      rw [List.foldl_cons, ih]
      by_cases hsetup : hookName? n = some s.pair.setup <;> simp [step, hsetup, Bool.or_assoc]

end PairState

/-- What is found for one pair after the calls of a file. -/
def findingsFor (calls : List Node) (pair : HookPair) : List Finding :=
  (calls.foldl PairState.step { pair }).findings

/-- What is found for a pair is read off **the calls**: the first setup call, if none is a teardown
call. -/
theorem findingsFor_eq (calls : List Node) (pair : HookPair) :
    findingsFor calls pair =
      match calls.find? fun n => hookName? n == some pair.setup with
      | none => []
      | some first =>
        if calls.any fun n => hookName? n == some pair.teardown then []
        else [⟨first, .missingTeardown, message pair⟩] := by
  rw [findingsFor, PairState.foldl_step, PairState.findings, ← List.head?_filter]
  cases calls.filter fun n => hookName? n == some pair.setup <;> simp

/-- The rule for a list of pairs. -/
def rule (pairs : List HookPair) : Rule where
  id := "CY001"
  name := "require-after-with-before"
  description :=
    "Require an after(() => \x7b ... \x7d) hook whenever before(() => \x7b ... \x7d) is used"
  listens := [.callExpression]
  check n := do
    let _ ← n.requireCallee
    return []
  finish calls := pairs.flatMap (findingsFor calls)

end TreeLint.HookPairing
