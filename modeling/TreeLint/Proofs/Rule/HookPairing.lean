import Mathlib.Data.List.Induction
import Mathlib.Data.List.Nodup
import Mathlib.Data.List.TakeWhile
import TreeLint.Proofs.Fallible
import TreeLint.Proofs.Rule.SharedWalk
import TreeLint.Rule.HookPairing

/-!
# Teardown for Every Setup, over Several Trees

The rule on hooks keeps what it has seen when one walk ends and the next begins, also when a walk
was stopped halfway. What it reports after a number of trees is therefore said in terms of all hook
calls met so far (`hookCalls`): each walk that comes to its end reports every pair whose setup has
been called and whose teardown has not, at the first call of the setup. A walk that is stopped
reports nothing, but the calls that it met count for the walks after it.

The hook calls of a tree are those among the nodes that the walk **enters** (`enteredNodes`): all
nodes of the tree in pre-order or, if the walk is stopped, those up to and including the node where
this happens.

## Main results

* `Recorded.exists_walkAll`: what one walk adds to what the rule has seen and reported.
* `reported_afterWalks`: what the rule has reported after any sequence of trees.
-/

namespace TreeLint.HookPairing

/-! ### What a walk meets -/

/-- Whether a walk with the rule **stops** at a node: at a call without a callee, and at a node
whose children are no sequence of nodes. -/
def stops (n : Node) : Bool :=
  (n.kind == .callExpression && n.callee.isNone) || n.childFault?.isSome

/-- Whether a walk with the rule comes to its end. -/
def completes : Root → Bool
  | .foreign _ => false
  | .node n => n.preorder.all fun m => !stops m

/-- The nodes that a walk with the rule **enters**, up to its end or to the node where it stops. -/
def enteredNodes : Root → List Node
  | .foreign _ => []
  | .node n => n.preorder.takeWhile (fun m => !stops m) ++ (n.preorder.find? stops).toList

/-- Whether a node is a **hook call**: a call of a bare identifier whose first argument is an inline
function. -/
def isHookCall (n : Node) : Bool :=
  n.kind == .callExpression && n.callee.any Node.isIdentifier &&
    n.arguments.head?.any Node.isFunction

/-- The hook calls that a walk meets. -/
def hookCalls (root : Root) : List Node := (enteredNodes root).filter isHookCall

/-- Whether a call is a call of this name. -/
def isCallOf (name : String) (n : Node) : Bool :=
  n.callee.any fun callee => callee.name == some name

/-- What is to be reported about a pair after these hook calls: a setup that has been called, at its
**first** call, if the teardown has not. -/
def reports (severity : Severity) (calls : List Node) (pair : HookPair) : List Diagnostic :=
  match calls.filter (isCallOf pair.setup), calls.filter (isCallOf pair.teardown) with
  | first :: _, [] =>
    [{ node := first, violation := .missingTeardown, message := message pair, ruleId := "CY001",
       ruleName := "require-after-with-before", severity }]
  | _, _ => []

/-- A walk that stops nowhere enters **all nodes**. -/
theorem enteredNodes_of_forall {n : Node} (h : ∀ m ∈ n.preorder, stops m = false) :
    enteredNodes (.node n) = n.preorder := by
  have htake : n.preorder.takeWhile (fun m => !stops m) = n.preorder :=
    List.takeWhile_eq_self_iff.mpr (by simpa using h)
  have hfind : n.preorder.find? stops = none := List.find?_eq_none.mpr (by simpa using h)
  rw [enteredNodes, htake, hfind, Option.toList_none, List.append_nil]

/-- A walk that stops enters the nodes **up to where it does**. -/
theorem enteredNodes_of_split {n m : Node} {done rest : List Node}
    (hsplit : n.preorder = done ++ m :: rest) (hdone : ∀ k ∈ done, stops k = false)
    (hm : stops m = true) : enteredNodes (.node n) = done ++ [m] := by
  have htake : (done ++ m :: rest).takeWhile (fun k => !stops k) = done := by
    rw [List.takeWhile_append_of_pos (by simpa using hdone)]
    simp [hm]
  have hfind : (done ++ m :: rest).find? stops = some m := by
    rw [List.find?_append, List.find?_eq_none.mpr (by simpa using hdone)]
    simp [hm]
  rw [enteredNodes, hsplit, htake, hfind, Option.toList_some]

/-! ### The rule and the hook calls that it has seen -/

/-- The rule takes everything but calls **without a callee**. -/
theorem takes_iff {pairs : List HookPair} {n : Node} :
    (rule pairs).Takes n ↔ ¬ (n.kind = .callExpression ∧ n.callee = none) := by
  have hcheck : (∃ findings, (rule pairs).check n = .ok findings) ↔ n.callee ≠ none := by
    cases hcallee : n.callee with
    | none => simp [rule, Node.requireCallee, hcallee, bind, Except.bind]
    | some callee => simp [rule, Node.requireCallee, hcallee, bind, Except.bind, pure, Except.pure]
  rw [Rule.Takes, hcheck, not_and]
  exact imp_congr_left List.mem_singleton

/-- At a node the rule finds **nothing**: what it has to report comes at the end. -/
theorem findings_rule (pairs : List HookPair) (n : Node) : (rule pairs).findings n = [] := by
  cases hcallee : n.callee <;>
    simp [Rule.findings, rule, Node.requireCallee, hcallee, bind, Except.bind, pure, Except.pure]

variable {pairs : List HookPair} {run : RuleRun}

/-- The rule lets a node pass exactly if the walk does **not stop** there. -/
theorem pass_iff (hrule : run.rule = rule pairs) {n : Node} :
    RuleRun.Pass [run] n ↔ stops n = false := by
  simp only [RuleRun.Pass, List.mem_singleton, forall_eq, hrule, takes_iff,
    Node.hasChildNodes_iff, stops, Bool.or_eq_false_iff, Bool.and_eq_false_iff,
    beq_eq_false_iff_ne, Option.isNone_eq_false_iff, Option.isSome_eq_false_iff,
    Option.isNone_iff_eq_none, Option.isSome_iff_ne_none, not_and_or]
  tauto

/-- The name by which the rule knows a node is the name of the hook call that the node is. -/
theorem hookName?_eq_some_iff {n : Node} (hkind : n.kind = .callExpression) {name : String} :
    hookName? n = some name ↔ isHookCall n ∧ isCallOf name n := by
  have hcallback : hasCallback n = n.arguments.head?.any Node.isFunction := by
    rw [hasCallback]
    cases n.arguments <;> rfl
  rw [hookName?, isHookCall, isCallOf, ← hcallback, hkind]
  cases n.callee with
  | none => simp
  | some callee =>
      cases callee.isIdentifier <;> cases hasCallback n <;> simp

/-- What the rule **finds** for a pair depends only on the hook calls among what it has seen. -/
theorem map_stamp_findingsFor (hrule : run.rule = rule pairs) {seen : List Node}
    (hseen : ∀ n ∈ seen, n.kind = .callExpression) (pair : HookPair) :
    (findingsFor seen pair).map run.stamp =
      reports run.severity (seen.filter isHookCall) pair := by
  have hfilter : ∀ name : String, (seen.filter fun n => hookName? n == some name) =
      (seen.filter isHookCall).filter (isCallOf name) := by
    intro name
    rw [List.filter_filter]
    refine List.filter_congr fun n hn => ?_
    rw [Bool.eq_iff_iff, beq_iff_eq, hookName?_eq_some_iff (hseen n hn), Bool.and_eq_true, and_comm]
  have hany : (seen.any fun n => hookName? n == some pair.teardown) =
      !((seen.filter isHookCall).filter (isCallOf pair.teardown)).isEmpty := by
    rw [← hfilter, Bool.eq_iff_iff]
    simp [List.filter_eq_nil_iff]
  rw [findingsFor_eq, ← List.head?_filter, hfilter, hany, reports]
  rcases (seen.filter isHookCall).filter (isCallOf pair.setup) with _ | ⟨first, others⟩
  · rfl
  · rcases (seen.filter isHookCall).filter (isCallOf pair.teardown) with _ | ⟨teardown, rest⟩
    · simp [RuleRun.stamp, hrule, rule]
    · rfl

/-- What the rule has **on record**: the hook calls among the calls that it has seen, and the
diagnostics that it has reported. -/
structure Recorded (pairs : List HookPair) (severity : Severity) (calls : List Node)
    (diagnostics : List Diagnostic) (run : RuleRun) : Prop where
  rule : run.rule = rule pairs
  severity : run.severity = severity
  seen : ∀ n ∈ run.seen, n.kind = .callExpression
  calls : run.seen.filter isHookCall = calls
  reported : run.reported = diagnostics

namespace Recorded

variable {severity : Severity} {calls : List Node} {diagnostics : List Diagnostic}

/-- Nodes that the rule takes add their hook calls to its record, and **no diagnostics**. -/
theorem after (h : Recorded pairs severity calls diagnostics run) (nodes : List Node) :
    Recorded pairs severity (calls ++ nodes.filter isHookCall) diagnostics (run.after nodes) where
  rule := h.rule
  severity := h.severity
  seen n hn := by
    rcases List.mem_append.mp hn with hn | hn
    · exact h.seen n hn
    · simpa [Rule.heeded, h.rule, HookPairing.rule] using (List.mem_filter.mp hn).2
  calls := by
    have hheeded : (run.rule.heeded nodes).filter isHookCall = nodes.filter isHookCall := by
      rw [Rule.heeded, List.filter_filter]
      refine List.filter_congr fun n _ => ?_
      cases hkind : n.kind <;> simp [isHookCall, hkind, h.rule, HookPairing.rule]
    rw [RuleRun.after, List.filter_append, h.calls, hheeded]
  reported := by simp [RuleRun.after, h.rule, findings_rule, h.reported]

/-- At the end of a walk the rule reports every pair without its teardown. -/
theorem finish (h : Recorded pairs severity calls diagnostics run) :
    Recorded pairs severity calls (diagnostics ++ pairs.flatMap (reports severity calls))
      run.finish where
  rule := h.rule
  severity := h.severity
  seen := h.seen
  calls := h.calls
  reported := by
    have hfinish : run.rule.finish run.seen = pairs.flatMap (findingsFor run.seen) := by
      rw [h.rule]
      rfl
    rw [RuleRun.finish, h.reported, hfinish, List.map_flatMap]
    simp only [map_stamp_findingsFor h.rule h.seen, h.severity, h.calls]

/-- **One walk** adds the hook calls that it meets to the record. If it comes to its end, and only
then, it adds the reports on what is on record by then. -/
theorem exists_walkAll (h : Recorded pairs severity calls diagnostics run) (root : Root) :
    ∃ run', (RuleRun.walkAll [run] root).state = [run'] ∧
      ((RuleRun.walkAll [run] root).fault = none ↔ completes root) ∧
      Recorded pairs severity (calls ++ hookCalls root)
        (diagnostics ++
          if completes root then pairs.flatMap (reports severity (calls ++ hookCalls root)) else [])
        run' := by
  have hkinds : run.rule.listens.Nodup := by
    rw [h.rule]
    exact List.nodup_singleton _
  cases root with
  | foreign value =>
      refine ⟨run, rfl, by simp [RuleRun.walkAll, Listeners.walk, completes], ?_⟩
      simpa [hookCalls, enteredNodes, completes] using h
  | node n =>
      by_cases hpass : ∀ m ∈ n.preorder, RuleRun.Pass [run] m
      · have hstops : ∀ m ∈ n.preorder, stops m = false :=
          fun m hm => (pass_iff h.rule).mp (hpass m hm)
        have hcompletes : completes (.node n) = true := by simpa [completes] using hstops
        have hwalk := RuleRun.walkAll_of_pass (fun r hr => List.mem_singleton.mp hr ▸ hkinds) hpass
        refine ⟨(run.after n.preorder).finish, by rw [hwalk]; rfl, by simp [hwalk, hcompletes], ?_⟩
        rw [if_pos hcompletes, hookCalls, enteredNodes_of_forall hstops]
        exact (h.after n.preorder).finish
      · obtain ⟨done, m, rest, hsplit, hdone, hm⟩ := RuleRun.exists_first_not_pass hpass
        have hstops : stops m = true := by
          rw [← Bool.not_eq_false]
          exact mt (pass_iff h.rule).mpr hm
        have hcompletes : completes (.node n) = false := by
          simp [completes, hsplit, hstops]
        have hentered := enteredNodes_of_split hsplit
          (fun k hk => (pass_iff h.rule).mp (hdone k hk)) hstops
        obtain ⟨fault, kept, hwalk, hkept⟩ := RuleRun.exists_walkAll_of_stop hkinds hsplit hdone hm
        refine ⟨run.after kept, by rw [hwalk], by simp [hwalk, hcompletes], ?_⟩
        rw [if_neg (by simp [hcompletes]), List.append_nil, hookCalls, hentered]
        rcases hkept with ⟨-, rfl⟩ | ⟨htakes, rfl⟩
        · exact h.after (done ++ [m])
        · -- a call that the rule refuses has no callee, so it is no hook call
          rw [h.rule, takes_iff, not_not] at htakes
          have hnone : [m].filter isHookCall = [] := by simp [isHookCall, htakes.2]
          rw [List.filter_append, hnone, List.append_nil]
          exact h.after kept

end Recorded

/-! ### Several trees -/

/-- The rule **after walks** of several trees, one after another. -/
def afterWalks (pairs : List HookPair) (severity : Severity) (trees : List Root) : List RuleRun :=
  trees.foldl (fun runs root => (RuleRun.walkAll runs root).state)
    [{ rule := rule pairs, severity }]

/-- A further walk goes on **from where the last one ended**. -/
theorem afterWalks_concat (pairs : List HookPair) (severity : Severity) (trees : List Root)
    (root : Root) :
    afterWalks pairs severity (trees ++ [root]) =
      (RuleRun.walkAll (afterWalks pairs severity trees) root).state := by
  rw [afterWalks, List.foldl_append]
  rfl

/-- What is to be reported after several trees: for each tree whose walk comes to its end, the pairs
without their teardown in the hook calls **up to and including** that tree. -/
def reportsOver (pairs : List HookPair) (severity : Severity) (trees : List Root) :
    List Diagnostic :=
  trees.zipIdx.flatMap fun (root, j) =>
    if completes root then
      pairs.flatMap (reports severity ((trees.take (j + 1)).flatMap hookCalls))
    else []

/-- A further tree adds what is missing in **all the calls so far**, if its walk comes to its end.
-/
theorem reportsOver_concat (pairs : List HookPair) (severity : Severity) (trees : List Root)
    (root : Root) :
    reportsOver pairs severity (trees ++ [root]) =
      reportsOver pairs severity trees ++
        if completes root then
          pairs.flatMap (reports severity (trees.flatMap hookCalls ++ hookCalls root))
        else [] := by
  have hearlier : ∀ entry ∈ trees.zipIdx,
      (trees ++ [root]).take (entry.2 + 1) = trees.take (entry.2 + 1) := by
    intro entry hentry
    exact List.take_append_of_le_length (List.snd_lt_of_mem_zipIdx hentry)
  rw [reportsOver, reportsOver, List.zipIdx_append, List.flatMap_append]
  congr 1
  · exact List.flatMap_congr fun entry hentry => by simp only [hearlier entry hentry]
  · simp [List.take_of_length_le]

/-- The record of the rule after several trees, by induction on their number. -/
theorem exists_recorded (pairs : List HookPair) (severity : Severity) (trees : List Root) :
    ∃ run, afterWalks pairs severity trees = [run] ∧
      Recorded pairs severity (trees.flatMap hookCalls) (reportsOver pairs severity trees) run := by
  induction trees using List.reverseRecOn with
  | nil => exact ⟨_, rfl, rfl, rfl, List.forall_mem_nil _, rfl, rfl⟩
  | append_singleton trees root ih =>
      obtain ⟨run, hrun, hrecorded⟩ := ih
      obtain ⟨run', hrun', -, hrecorded'⟩ := hrecorded.exists_walkAll root
      refine ⟨run', by rw [afterWalks_concat, hrun, hrun'], ?_⟩
      rw [reportsOver_concat, List.flatMap_append, List.flatMap_singleton]
      exact hrecorded'

/-- **The reports of the rule on hooks.** Let trees be walked one after another. The walk of the
next tree comes to its end if and only if it stops at no node. What the rule has reported is, for
each walk that came to its end and each pair in the order of the settings, a missing teardown at
the first call of the setup among the hook calls met by then, if there is one and no call of the
teardown. -/
theorem reported_afterWalks (pairs : List HookPair) (severity : Severity) (trees : List Root) :
    (∀ root, (RuleRun.walkAll (afterWalks pairs severity trees) root).fault = none ↔
      completes root) ∧
    (afterWalks pairs severity trees).flatMap RuleRun.reported =
      trees.zipIdx.flatMap fun (root, j) =>
        if completes root then
          pairs.flatMap (reports severity ((trees.take (j + 1)).flatMap hookCalls))
        else [] := by
  obtain ⟨run, hrun, hrecorded⟩ := exists_recorded pairs severity trees
  rw [hrun]
  constructor
  · intro root
    obtain ⟨-, -, hfault, -⟩ := hrecorded.exists_walkAll root
    exact hfault
  · rw [List.flatMap_singleton, hrecorded.reported]
    rfl

end TreeLint.HookPairing
