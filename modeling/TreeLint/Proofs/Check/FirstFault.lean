import TreeLint.Proofs.Check.Independence
import TreeLint.Proofs.Rule.Refusal

/-!
# Reports on Trees Put Together by Hand

A tree that was put together by hand may be wrong anywhere. It gets a report all the same: of what
is wrong with it the **first fault** is reported (`firstFault?`), in the order of a walk and, at one
node, with the enabled rules in the order of their ids before the children. A failed report has no
diagnostics, whatever the rules had found before the fault.

## Main results

* `Registry.sorted_builtin`: the rules that come with the library, by id.
* `Selection.fault_walkAll`: the fault of a walk with selected rules.
* `lintTree_report`: every tree gets a report, which says what its first fault is.
-/

namespace TreeLint

/-! ### Faults with several rules -/

/-- What is wrong **at a node** when the rules with these ids are enabled: what the first of them
refuses, by id, or else what is wrong with the children. -/
def faultAt (settings : Settings) (enabled : List String) (n : Node) : Option Malformed :=
  let refusals := [("CY001", HookPairing.refused? n), ("CY002", ClearBeforeType.refused? n),
    ("PAGE001", PageSingleton.refused? settings.pageSuffix settings.requiredFieldName n)]
  (refusals.findSome? fun (id, refused) => if id ∈ enabled then refused else none).or n.childFault?

/-- The **first fault** of a tree when the rules with these ids are enabled. -/
def firstFault? (settings : Settings) (enabled : List String) : Root → Option Malformed
  | .foreign type => some (.foreignRoot type)
  | .node n => n.preorder.findSome? (faultAt settings enabled)

namespace Registry

/-- The rules that come with the library, **by id**. -/
theorem sorted_builtin :
    builtin.sorted =
      [⟨"CY001", "require-after-with-before", fun s => HookPairing.rule s.hookPairs⟩,
       ⟨"CY002", "require-clear-before-type", fun _ => ClearBeforeType.rule⟩,
       ⟨"PAGE001", "enforce-page-singleton",
         fun s => PageSingleton.rule s.pageSuffix s.requiredFieldName⟩] := by
  simp [sorted, builtin, List.mergeSort, List.MergeSort.Internal.splitInTwo]

end Registry

/-- The first hit among rules selected by id is the first hit **among all**, the others left out. -/
theorem findSome?_of_sublist {β : Type} {order specs : List RuleSpec} {ids : List String}
    (hnodup : order.Nodup) (h : specs.Sublist order)
    (hids : ∀ spec ∈ order, spec.id ∈ ids ↔ spec ∈ specs) (f : RuleSpec → Option β) :
    order.findSome? (fun spec => if spec.id ∈ ids then f spec else none) = specs.findSome? f := by
  induction h with
  | slnil => rfl
  | cons spec h ih =>
      obtain ⟨hspec, hnodup⟩ := List.nodup_cons.mp hnodup
      obtain ⟨hhead, hids⟩ := List.forall_mem_cons.mp hids
      rw [List.findSome?_cons, if_neg fun hmem => hspec (h.subset (hhead.mp hmem))]
      exact ih hnodup hids
  | cons_cons spec h ih =>
      obtain ⟨hspec, hnodup⟩ := List.nodup_cons.mp hnodup
      obtain ⟨hhead, hids⟩ := List.forall_mem_cons.mp hids
      have hrest := ih hnodup fun other hother => (hids other hother).trans <|
        List.mem_cons.trans (or_iff_right fun heq => hspec (heq ▸ hother))
      rw [List.findSome?_cons, List.findSome?_cons, if_pos (hhead.mpr List.mem_cons_self), hrest]

namespace Selection

variable {settings : Settings} {specs : List RuleSpec}

/-- The rules of a selection stop a node with **the fault of the first rule** that refuses it, by
id. -/
theorem stop?_eq_faultAt (h : Selection settings Registry.builtin.sorted specs) (n : Node) :
    Rule.stop? (specs.map (·.build settings)) n =
      faultAt settings (specs.map RuleSpec.id) n := by
  have hids : ∀ spec ∈ Registry.builtin.sorted,
      spec.id ∈ specs.map RuleSpec.id ↔ spec ∈ specs := by
    intro spec hspec
    refine ⟨fun hmem => ?_, List.mem_map_of_mem⟩
    obtain ⟨other, hother, hid⟩ := List.mem_map.mp hmem
    exact Registry.eq_of_id_eq (h.builtin other hother) (h.library.mem_iff.mp hspec) hid ▸ hother
  rw [Rule.stop?, faultAt, List.findSome?_map, ← findSome?_of_sublist h.nodup_order h.sublist hids,
    Registry.sorted_builtin]
  simp only [Function.comp, List.findSome?_cons, HookPairing.refusal?_rule,
    ClearBeforeType.refusal?_rule, PageSingleton.refusal?_rule]
  rfl

/-- **The fault of a walk** with selected rules is the first fault of the tree. -/
theorem fault_walkAll (h : Selection settings Registry.builtin.sorted specs)
    {runs : List RuleRun} (hruns : specs.mapM (RuleSpec.start settings) = .ok runs)
    (hkinds : ∀ run ∈ runs, run.rule.listens.Nodup) (root : Root) :
    (RuleRun.walkAll runs root).fault = firstFault? settings (specs.map RuleSpec.id) root := by
  cases root with
  | foreign type => rfl
  | node n =>
      rw [RuleRun.fault_walkAll hkinds, (RuleSpec.of_mapM_start n hruns).1,
        funext h.stop?_eq_faultAt, firstFault?]

end Selection

/-- The check of a tree ends with the fault that ends the walk. -/
theorem checkTree_of_fault {settings : Settings} {specs : List RuleSpec} {root : Root}
    {runs : List RuleRun} (hruns : specs.mapM (RuleSpec.start settings) = .ok runs)
    {fault : Malformed} (hfault : (RuleRun.walkAll runs root).fault = some fault) :
    checkTree settings specs root = .error (.malformed fault) := by
  rw [checkTree, hruns]
  simp only [bind, Except.bind, hfault]

/-! ### Reports -/

/-- **Every tree gets a report.** Let the rules of the library that are switched on be selected in
any way, and let all lines and columns of a tree be whole numbers or missing. Whatever else is wrong
with the tree, it gets a report. The report is failed if and only if the tree has a fault, and then
it says what the first fault is and has no diagnostics. -/
theorem lintTree_report {settings : Settings} {specs : List RuleSpec}
    (h : Selection settings Registry.builtin.sorted specs) (path : String) {root : Root}
    (hwhole : ∀ n, root = .node n → ∀ m ∈ n.preorder, m.hasWholePlace) :
    ∃ report, (Linter.lintTree ⟨settings, specs⟩ path root).2 = .ok report ∧
      report.path = path ∧
      (report.failed ↔ ∃ fault, firstFault? settings (specs.map RuleSpec.id) root = some fault) ∧
      ∀ fault, firstFault? settings (specs.map RuleSpec.id) root = some fault →
        report.error = some fault.message ∧ report.diagnostics = [] := by
  obtain ⟨runs, hruns, hkinds, hpass⟩ := h.exists_start
  have hwalk := h.fault_walkAll hruns hkinds root
  cases hfault : firstFault? settings (specs.map RuleSpec.id) root with
  | some fault =>
      have hcheck := checkTree_of_fault hruns (hwalk.trans hfault)
      refine ⟨{ path, error := some fault.message }, by simp only [Linter.lintTree, hcheck], rfl,
        ⟨fun _ => ⟨fault, rfl⟩, fun _ => rfl⟩, fun fault' heq => ?_⟩
      obtain rfl := Option.some.inj heq
      exact ⟨rfl, rfl⟩
  | none =>
      cases root with
      | foreign type => cases hfault
      | node n =>
          have hpasses : ∀ m ∈ n.preorder, Passes settings specs m := fun m hm =>
            (hpass m).mp ((RuleRun.fault_walkAll_eq_none_iff hkinds).mp (hwalk.trans hfault) m hm)
          obtain ⟨ds, hcheck⟩ : ∃ ds, checkTree settings specs (.node n) = .ok ds :=
            ⟨_, h.checkTree_of_passes (hwhole n rfl) hpasses⟩
          refine ⟨{ path, diagnostics := ds }, by simp only [Linter.lintTree, hcheck], rfl, ?_, ?_⟩
          · constructor
            · intro hfailed
              cases hfailed
            · rintro ⟨fault, hnone⟩
              cases hnone
          · intro fault hnone
            cases hnone

/-- A page class without its singleton, then a call `.type(...)` of what a call without a callee
gives, and after that children that are no nodes. -/
def brokenTest : Node where
  kind := .program
  children := .sequence
    [.node { kind := .classDeclaration, name := some "LoginPage" },
     .node { kind := .callExpression,
             callee := some { kind := .memberExpression,
                              receiver := some { kind := .callExpression },
                              member := some { kind := .identifier, name := some "type" } },
             span := { line := .int 4 } },
     .node { kind := .functionExpression, children := .sequence [.foreign "int"] }]

/-- With all rules the test fails at the call, and without the rule on `.type` at the children. -/
theorem lintTree_brokenTest :
    Selection {} Registry.builtin.sorted Registry.builtin.sorted ∧
    (∀ m ∈ brokenTest.preorder, m.hasWholePlace) ∧
    firstFault? {} ["CY001", "PAGE001"] (.node brokenTest) =
      some (.foreignChild .functionExpression "int") ∧
    ∃ report, (Linter.lintTree ⟨{}, Registry.builtin.sorted⟩ "test" (.node brokenTest)).2 =
        .ok report ∧
      report.failed ∧ report.error = some "CallExpression node has no callee" ∧
      report.diagnostics = [] := by
  have hall : Selection {} Registry.builtin.sorted Registry.builtin.sorted :=
    ⟨List.mergeSort_perm _ _, .refl _, by rintro _ _ ⟨⟩⟩
  have hwhole : ∀ m ∈ brokenTest.preorder, m.hasWholePlace := by decide +kernel
  have hids : Registry.builtin.sorted.map RuleSpec.id = ["CY001", "CY002", "PAGE001"] := by
    rw [Registry.sorted_builtin]
    rfl
  have hfault : firstFault? {} ["CY001", "CY002", "PAGE001"] (.node brokenTest) =
      some (.noCallee .callExpression) := by decide +kernel
  have hwhole' : ∀ n, Child.node brokenTest = .node n → ∀ m ∈ n.preorder, m.hasWholePlace := by
    rintro _ ⟨⟩
    exact hwhole
  obtain ⟨report, hreport, -, hfailed, hfirst⟩ := lintTree_report hall "test" hwhole'
  rw [hids] at hfailed hfirst
  exact ⟨hall, hwhole, by decide +kernel, report, hreport, hfailed.mpr ⟨_, hfault⟩,
    hfirst _ hfault⟩

end TreeLint
