import Mathlib.Data.Prod.Lex
import TreeLint.Proofs.Check.BuiltTree
import TreeLint.Proofs.Rule.SharedWalk
import TreeLint.Proofs.Sorting.Stability

/-!
# Rules Are Independent

A rule reports the same whether it shares the walk with other rules or has it for itself. So the
check of a tree with fewer rules gives what the check with more rules gives, without the diagnostics
of the rules that are left out and with the others in the same order.

Two things have to be seen for this. On the walk, a rule's record depends on the nodes of the tree
and not on the rules beside it (`RuleSpec.reports`). After the walk, the diagnostics of all rules
are ordered by their places; the order is stable, so it does not matter whether diagnostics are
left out before or after.

With more rules the walk may end earlier, and with another fault, but never later.

## Main results

* `sortDiagnostics_eq_stableSort`: diagnostics at whole places are ordered by line and column, and
  stay in order where these are the same.
* `Registry.selection_of_enabled`: what the registry enables is a selection of rules.
* `Selection.checkTree_of_passes`, `Selection.exists_checkTree_of_not_passes`: what the check of a
  tree gives, and when it fails.
* `checkTree_of_subset`: the check with some of the rules.
-/

namespace TreeLint

open Sorting

/-! ### Places -/

/-- The **place** by which a diagnostic at a whole line and column is ordered. -/
def Diagnostic.wholePlace (d : Diagnostic) : ℤ ×ₗ ℤ :=
  match d.position with
  | .arr [.int line, .int column] => toLex (line, column)
  | _ => toLex (0, 0)

/-- Two pairs of whole numbers are compared as **pairs**. -/
theorem before_pair (a b c d : ℤ) :
    (Value.arr [.int a, .int b] : Json).before (.arr [.int c, .int d] : Json) =
      .ok (decide (toLex (a, b) < toLex (c, d))) := by
  simp only [Value.before, Value.itemsBefore, Value.same, Value.sameNumber, Value.magnitude?,
    Magnitude.ofInt, Magnitude.eq, Magnitude.lt, Prod.Lex.toLex_lt_toLex]
  by_cases hac : a = c
  · by_cases hbd : b = d
    · simp [hac, hbd]
    · simp [hac, hbd]
  · simp [hac]

/-- Diagnostics at whole places are put in a **stable** order by their places. -/
theorem sortDiagnostics_eq_stableSort {ds : List Diagnostic}
    (h : ∀ d ∈ ds, d.node.hasWholePlace) :
    sortDiagnostics ds = .ok (stableSort Diagnostic.wholePlace ds) := by
  refine sortBy?_eq_stableSort fun a ha b hb => ?_
  obtain ⟨line, column, hposition⟩ := exists_position (h a ha)
  obtain ⟨line', column', hposition'⟩ := exists_position (h b hb)
  simp only [Diagnostic.wholePlace, hposition, hposition', before_pair]

/-! ### Where rules report -/

/-- A rule that reports a node only when it is told about it. -/
def Rule.Anchored (rule : Rule) : Prop :=
  ∀ n findings, rule.check n = .ok findings → ∀ f ∈ findings, f.node = n

/-- The rule on cleared inputs reports **the call** that it is told about. -/
theorem ClearBeforeType.anchored_rule : ClearBeforeType.rule.Anchored := by
  intro n findings h f hf
  have hverdict : ∀ before : Option String, (if before = some "clear" then pure []
      else pure [⟨n, .missingClearBeforeType, message⟩] : Except Malformed (List Finding)) =
        .ok findings → f.node = n := by
    intro before h
    split at h
    · obtain rfl := Except.ok.inj h
      cases hf
    · obtain rfl := Except.ok.inj h
      rw [List.mem_singleton.mp hf]
  change check n = .ok findings at h
  simp only [check, bind_eq_ok] at h
  obtain ⟨name, -, h⟩ := h
  split at h
  · obtain ⟨callee, -, h⟩ := bind_eq_ok.mp h
    split at h
    · obtain ⟨before, -, h⟩ := bind_eq_ok.mp h
      exact hverdict before h
    · exact hverdict none h
  · obtain rfl := Except.ok.inj h
    cases hf

/-- The rule on hooks reports **nothing** while it is told about nodes, but only at the end. -/
theorem HookPairing.anchored_rule (pairs : List HookPair) : (HookPairing.rule pairs).Anchored := by
  intro n findings h f hf
  obtain ⟨callee, -, h⟩ := bind_eq_ok.mp h
  obtain rfl := Except.ok.inj h
  cases hf

/-- The rule on singletons reports **the class** that it is told about. -/
theorem PageSingleton.anchored_rule (suffix fieldName : String) :
    (PageSingleton.rule suffix fieldName).Anchored := by
  intro n findings h f hf
  change check suffix fieldName n = .ok findings at h
  rw [check] at h
  split at h
  · obtain rfl := Except.ok.inj h
    cases hf
  · obtain ⟨isDeclared, -, h⟩ := bind_eq_ok.mp h
    split at h
    · obtain rfl := Except.ok.inj h
      cases hf
    · obtain rfl := Except.ok.inj h
      rw [List.mem_singleton.mp hf]

/-- What is asked of a rule here, beyond what it reports at the end: it is told once about a node,
and reports only nodes that it is told about. -/
theorem anchored_of_mem_builtin {spec : RuleSpec} (h : spec ∈ Registry.builtin)
    (settings : Settings) :
    (spec.build settings).Anchored ∧ (spec.build settings).listens.Nodup ∧
      (spec.build settings).id = spec.id := by
  simp only [Registry.builtin, List.mem_cons, List.not_mem_nil, or_false] at h
  rcases h with rfl | rfl | rfl
  · exact ⟨PageSingleton.anchored_rule settings.pageSuffix settings.requiredFieldName,
      List.nodup_singleton _, rfl⟩
  · exact ⟨HookPairing.anchored_rule settings.hookPairs, List.nodup_singleton _, rfl⟩
  · exact ⟨ClearBeforeType.anchored_rule, List.nodup_singleton _, rfl⟩

/-- What a rule has seen and reported after nodes, and at the end, are these nodes. -/
theorem RuleRun.node_mem_of_mem_finish_after {run : RuleRun} {nodes : List Node}
    (hfresh : run.seen = [] ∧ run.reported = []) (hanchored : run.rule.Anchored)
    (hfinish : ∀ seen, ∀ f ∈ run.rule.finish seen, f.node ∈ seen) {d : Diagnostic}
    (hd : d ∈ (run.after nodes).finish.reported) :
    d.node ∈ nodes ∧ d.ruleId = run.rule.id := by
  simp only [finish, after, hfresh, List.nil_append, List.mem_append, List.mem_flatMap,
    List.mem_map] at hd
  rcases hd with ⟨n, hn, f, hf, rfl⟩ | ⟨f, hf, rfl⟩
  · have hnode : f.node = n := by
      rw [Rule.findings] at hf
      split at hf
      · next findings hcheck => exact hanchored n findings hcheck f hf
      · cases hf
    refine ⟨?_, rfl⟩
    change f.node ∈ nodes
    rw [hnode]
    exact List.mem_of_mem_filter hn
  · exact ⟨List.mem_of_mem_filter (hfinish _ f hf), rfl⟩

/-! ### What one rule reports on a tree -/

namespace RuleSpec

variable {settings : Settings} {root : Node} {spec : RuleSpec} {specs : List RuleSpec}

/-- A rule that is switched on is started with **its level** as the severity. -/
theorem start_eq_ok {run : RuleRun} :
    spec.start settings = .ok run ↔
      ∃ severity, (settings.levelFor spec.id spec.name).severity = .ok severity ∧
        run = { rule := spec.build settings, severity } := by
  rw [start]
  cases (settings.levelFor spec.id spec.name).severity with
  | error fault => simp
  | ok severity => simp [eq_comm]

/-- The diagnostics that a registered rule **reports on a tree** that it takes. -/
def reports (settings : Settings) (root : Node) (spec : RuleSpec) : List Diagnostic :=
  match spec.start settings with
  | .ok run => (run.after root.preorder).finish.reported
  | .error _ => []

/-- A rule of the library reports nodes of the tree, under its own name. -/
theorem node_mem_of_mem_reports (hspec : spec ∈ Registry.builtin) {d : Diagnostic}
    (hd : d ∈ spec.reports settings root) : d.node ∈ root.preorder ∧ d.ruleId = spec.id := by
  rw [reports] at hd
  split at hd
  · next run hrun =>
    obtain ⟨severity, -, rfl⟩ := start_eq_ok.mp hrun
    obtain ⟨hanchored, -, hid⟩ := anchored_of_mem_builtin hspec settings
    have hfinish := (accepting_of_mem_builtin hspec settings).finish
    rw [← hid]
    exact RuleRun.node_mem_of_mem_finish_after ⟨rfl, rfl⟩ hanchored hfinish hd
  · cases hd

/-- What the started rules report is what the registered rules report, **one by one**. -/
theorem map_reported_of_mapM_start (root : Node) {runs : List RuleRun}
    (h : specs.mapM (start settings) = .ok runs) :
    runs.map (fun run => (run.after root.preorder).finish.reported) =
      specs.map (reports settings root) := by
  let reported : Except CheckFault RuleRun → List Diagnostic
    | .ok run => (run.after root.preorder).finish.reported
    | .error _ => []
  calc runs.map (fun run => (run.after root.preorder).finish.reported)
      = (runs.map Except.ok).map reported := by rw [List.map_map]; rfl
    _ = (specs.map (start settings)).map reported := by rw [map_of_mapM h]
    _ = specs.map (reports settings root) := by rw [List.map_map]; rfl

/-- Started rules are the rules that settings make, and what they report together is what they
report **one by one**. -/
theorem of_mapM_start (root : Node) {runs : List RuleRun}
    (h : specs.mapM (start settings) = .ok runs) :
    runs.map RuleRun.rule = specs.map (·.build settings) ∧
      (runs.map fun run => (run.after root.preorder).finish).flatMap RuleRun.reported =
        specs.flatMap (reports settings root) := by
  refine ⟨?_, by rw [List.flatMap_map, List.flatMap_def, map_reported_of_mapM_start root h,
    List.flatMap_def]⟩
  induction specs generalizing runs with
  | nil =>
      obtain rfl := Except.ok.inj h
      rfl
  | cons spec specs ih =>
      rw [List.mapM_cons] at h
      obtain ⟨run, hrun, h⟩ := bind_eq_ok.mp h
      obtain ⟨rest, hrest, h⟩ := bind_eq_ok.mp h
      obtain rfl := Except.ok.inj h
      obtain ⟨severity, -, rfl⟩ := start_eq_ok.mp hrun
      rw [List.map_cons, List.map_cons, ih hrest]

/-- What is started are **the rules** that were to be started. -/
theorem exists_rule_of_mapM_start {runs : List RuleRun}
    (h : specs.mapM (start settings) = .ok runs) {run : RuleRun} (hrun : run ∈ runs) :
    ∃ spec ∈ specs, run.rule = spec.build settings := by
  have hrule : run.rule ∈ specs.map (·.build settings) :=
    (of_mapM_start default h).1 ▸ List.mem_map_of_mem hrun
  obtain ⟨spec, hspec, hbuild⟩ := List.mem_map.mp hrule
  exact ⟨spec, hspec, hbuild.symm⟩

end RuleSpec

/-! ### Selections -/

/-- A **selection** of rules to run. The rules of the library are listed in some order, and of these
some are to be run, in that order; none of them is switched off. -/
structure Selection (settings : Settings) (order specs : List RuleSpec) : Prop where
  library : order.Perm Registry.builtin
  sublist : specs.Sublist order
  on : ∀ spec ∈ specs, settings.levelFor spec.id spec.name ≠ .off

namespace Registry

variable {settings : Settings} {only : List String} {specs : List RuleSpec}

/-- Rules of the library with one id are one rule. -/
theorem eq_of_id_eq {a b : RuleSpec} (ha : a ∈ builtin) (hb : b ∈ builtin) (hid : a.id = b.id) :
    a = b := by
  simp only [builtin, List.mem_cons, List.not_mem_nil, or_false] at ha hb
  rcases ha with rfl | rfl | rfl <;> rcases hb with rfl | rfl | rfl <;>
    first | rfl | exact absurd hid (by decide)

/-- No rule is **twice** in the library. -/
theorem nodup_builtin : builtin.Nodup := List.Nodup.of_map RuleSpec.id (by decide)

end Registry

/-! ### What rules report together -/

/-- Rules let a node of a walk **pass** if its children are a sequence of nodes and every rule takes
it. -/
def Passes (settings : Settings) (specs : List RuleSpec) (n : Node) : Prop :=
  n.HasChildNodes ∧ ∀ spec ∈ specs, (spec.build settings).Takes n

namespace Selection

variable {settings : Settings} {root : Node} {order specs S T : List RuleSpec}

/-- The rules of a selection are **of the library**. -/
theorem builtin (h : Selection settings order specs) :
    ∀ spec ∈ specs, spec ∈ Registry.builtin :=
  fun _ hspec => h.library.subset (h.sublist.subset hspec)

/-- The order of a selection lists each rule **once**. -/
theorem nodup_order (h : Selection settings order specs) : order.Nodup :=
  h.library.nodup_iff.mpr Registry.nodup_builtin

/-- The ids of a selection are **different**. -/
theorem nodup_ids (h : Selection settings order specs) : (specs.map RuleSpec.id).Nodup :=
  (h.nodup_order.sublist h.sublist).map_on fun a ha b hb =>
    Registry.eq_of_id_eq (h.builtin a ha) (h.builtin b hb)

/-- Each rule of a selection is a selection **by itself**. -/
theorem singleton (h : Selection settings order T) {spec : RuleSpec} (hspec : spec ∈ T) :
    Selection settings order [spec] where
  library := h.library
  sublist := List.singleton_sublist.mpr (h.sublist.subset hspec)
  on := by simpa using h.on spec hspec

/-- Selected rules can be started, and let pass what they let pass. -/
theorem exists_start (h : Selection settings order specs) :
    ∃ runs, specs.mapM (RuleSpec.start settings) = .ok runs ∧
      (∀ run ∈ runs, run.rule.listens.Nodup) ∧
      ∀ n, RuleRun.Pass runs n ↔ Passes settings specs n := by
  obtain ⟨runs, hruns, hspec⟩ := TreeLint.exists_start h.on
  refine ⟨runs, hruns, fun run hrun => ?_, fun n => ?_⟩
  · obtain ⟨-, spec, hmem, hrule⟩ := hspec run hrun
    rw [hrule]
    exact (anchored_of_mem_builtin (h.builtin spec hmem) settings).2.1
  · obtain ⟨hrules, -⟩ := RuleSpec.of_mapM_start n hruns
    have htakes : (∀ rule ∈ runs.map RuleRun.rule, rule.Takes n) ↔
        ∀ rule ∈ specs.map (·.build settings), rule.Takes n := by rw [hrules]
    rw [List.forall_mem_map, List.forall_mem_map] at htakes
    exact and_congr_right fun _ => htakes

/-- The check of a tree whose nodes all pass gives what the rules report one by one, **in order of
places**. -/
theorem checkTree_of_passes (h : Selection settings order specs)
    (hwhole : ∀ n ∈ root.preorder, n.hasWholePlace)
    (hpasses : ∀ n ∈ root.preorder, Passes settings specs n) :
    checkTree settings specs (.node root) =
      .ok (stableSort Diagnostic.wholePlace (specs.flatMap (RuleSpec.reports settings root))) := by
  obtain ⟨runs, hruns, hkinds, hpass⟩ := h.exists_start
  have hwalk := RuleRun.walkAll_of_pass hkinds fun n hn => (hpass n).mpr (hpasses n hn)
  rw [checkTree_of_walkAll hruns hwalk, (RuleSpec.of_mapM_start root hruns).2,
    sortDiagnostics_eq_stableSort, mapError_ok]
  intro d hd
  obtain ⟨spec, hspec, hd⟩ := List.mem_flatMap.mp hd
  exact hwhole d.node (RuleSpec.node_mem_of_mem_reports (h.builtin spec hspec) hd).1

/-- A node that does not pass makes the tree **malformed**. -/
theorem exists_checkTree_of_not_passes (h : Selection settings order specs)
    (hpasses : ¬ ∀ n ∈ root.preorder, Passes settings specs n) :
    ∃ fault, checkTree settings specs (.node root) = .error (.malformed fault) := by
  obtain ⟨runs, hruns, hkinds, hpass⟩ := h.exists_start
  have hfault : (RuleRun.walkAll runs (.node root)).fault ≠ none := fun hnone =>
    hpasses fun n hn =>
      (hpass n).mp ((RuleRun.fault_walkAll_eq_none_iff hkinds).mp hnone n hn)
  obtain ⟨fault, hfault⟩ := Option.ne_none_iff_exists'.mp hfault
  exact ⟨fault, by rw [checkTree, hruns]; simp only [bind, Except.bind, hfault]⟩

end Selection

/-! ### Independence -/

/-- Of two selections from one list, the smaller one is **a part** of the other. -/
theorem sublist_of_subset {order S T : List RuleSpec} (hnodup : order.Nodup)
    (hS : S.Sublist order) (hT : T.Sublist order) (hST : S ⊆ T) : S.Sublist T := by
  induction hT generalizing S with
  | slnil => exact hS
  | cons spec hT ih =>
      obtain ⟨hspec, hnodup⟩ := List.nodup_cons.mp hnodup
      rcases List.sublist_cons_iff.mp hS with hS | ⟨S', rfl, -⟩
      · exact ih hnodup hS hST
      · exact absurd (hT.subset (hST List.mem_cons_self)) hspec
  | cons_cons spec hT ih =>
      rename_i T order
      obtain ⟨hspec, hnodup⟩ := List.nodup_cons.mp hnodup
      -- `spec` is in the list only once, so what comes after it is in the rest of both selections
      have hrest : ∀ {S' : List RuleSpec}, S'.Sublist order → S' ⊆ spec :: T → S' ⊆ T := by
        intro S' hS' hsub other hother
        refine (List.mem_cons.mp (hsub hother)).resolve_left ?_
        rintro rfl
        exact hspec (hS'.subset hother)
      rcases List.sublist_cons_iff.mp hS with hS | ⟨S', rfl, hS'⟩
      · exact (ih hnodup hS (hrest hS hST)).cons spec
      · exact (ih hnodup hS' (hrest hS' fun _ h => hST (List.mem_cons_of_mem _ h))).cons_cons spec

/-- Of what rules report, **the part of some of them** is what these report. -/
theorem filter_flatMap_of_sublist {S T : List RuleSpec} {reports : RuleSpec → List Diagnostic}
    (hids : (T.map RuleSpec.id).Nodup) (hST : S.Sublist T)
    (hreports : ∀ spec ∈ T, ∀ d ∈ reports spec, d.ruleId = spec.id) :
    (T.flatMap reports).filter (fun d => d.ruleId ∈ S.map RuleSpec.id) = S.flatMap reports := by
  induction hST with
  | slnil => rfl
  | cons spec hST ih =>
      rename_i S T
      obtain ⟨hspec, hids⟩ := List.nodup_cons.mp hids
      obtain ⟨hhead, hreports⟩ := List.forall_mem_cons.mp hreports
      have hnone : (reports spec).filter (fun d => d.ruleId ∈ S.map RuleSpec.id) = [] := by
        rw [List.filter_eq_nil_iff]
        intro d hd
        rw [hhead d hd, decide_eq_true_eq]
        exact fun hmem => hspec ((hST.map _).subset hmem)
      rw [List.flatMap_cons, List.filter_append, hnone, List.nil_append, ih hids hreports]
  | cons_cons spec hST ih =>
      rename_i S T
      obtain ⟨hspec, hids⟩ := List.nodup_cons.mp hids
      obtain ⟨hhead, hreports⟩ := List.forall_mem_cons.mp hreports
      have hall : (reports spec).filter
          (fun d => d.ruleId ∈ (spec :: S).map RuleSpec.id) = reports spec := by
        rw [List.filter_eq_self]
        intro d hd
        simp [hhead d hd]
      have hrest : (T.flatMap reports).filter (fun d => d.ruleId ∈ (spec :: S).map RuleSpec.id) =
          (T.flatMap reports).filter (fun d => d.ruleId ∈ S.map RuleSpec.id) := by
        refine List.filter_congr fun d hd => ?_
        obtain ⟨other, hother, hd⟩ := List.mem_flatMap.mp hd
        have hne : d.ruleId ≠ spec.id := by
          rw [hreports other hother d hd]
          exact fun heq => hspec (heq ▸ List.mem_map_of_mem hother)
        simp [hne]
      rw [List.flatMap_cons, List.filter_append, hall, hrest, ih hids hreports, List.flatMap_cons]

/-- **Rules are independent.** Let all lines and columns of a tree be whole numbers or missing. If
the check of the tree with a selection of rules has a result, then so has the check with any part
of the selection, and it is the same without the diagnostics of the other rules; this holds in
particular of each rule alone. If the check with a part of the rules finds the tree malformed, then
so does the check with all of them. -/
theorem checkTree_of_subset {settings : Settings} {root : Node} {order S T : List RuleSpec}
    (hwhole : ∀ n ∈ root.preorder, n.hasWholePlace) (hS : Selection settings order S)
    (hT : Selection settings order T) (hST : S ⊆ T) :
    (∀ ds, checkTree settings T (.node root) = .ok ds →
      checkTree settings S (.node root) =
        .ok (ds.filter fun d => d.ruleId ∈ S.map RuleSpec.id)) ∧
    (∀ fault, checkTree settings S (.node root) = .error (.malformed fault) →
      ∃ fault', checkTree settings T (.node root) = .error (.malformed fault')) ∧
    (∀ ds, checkTree settings T (.node root) = .ok ds → ∀ spec ∈ T,
      checkTree settings [spec] (.node root) = .ok (ds.filter fun d => d.ruleId = spec.id)) := by
  have hpart : ∀ {S : List RuleSpec}, Selection settings order S → S ⊆ T → ∀ ds,
      checkTree settings T (.node root) = .ok ds → checkTree settings S (.node root) =
        .ok (ds.filter fun d => d.ruleId ∈ S.map RuleSpec.id) := by
    intro S hS hST ds hcheck
    have hsublist := sublist_of_subset hT.nodup_order hS.sublist hT.sublist hST
    by_cases hpasses : ∀ n ∈ root.preorder, Passes settings T n
    · have hpasses' : ∀ n ∈ root.preorder, Passes settings S n := fun n hn =>
        ⟨(hpasses n hn).1, fun spec hspec => (hpasses n hn).2 spec (hST hspec)⟩
      rw [hT.checkTree_of_passes hwhole hpasses] at hcheck
      rw [hS.checkTree_of_passes hwhole hpasses', ← Except.ok.inj hcheck, filter_stableSort,
        filter_flatMap_of_sublist hT.nodup_ids hsublist]
      exact fun spec hspec d hd => (RuleSpec.node_mem_of_mem_reports (hT.builtin spec hspec) hd).2
    · obtain ⟨fault, hfault⟩ := hT.exists_checkTree_of_not_passes hpasses
      rw [hfault] at hcheck
      cases hcheck
  refine ⟨hpart hS hST, fun fault hfault => ?_, fun ds hcheck spec hspec => ?_⟩
  · refine hT.exists_checkTree_of_not_passes fun hpasses => ?_
    rw [hpart hS hST _ (hT.checkTree_of_passes hwhole hpasses)] at hfault
    cases hfault
  · have hsubset : [spec] ⊆ T := List.cons_subset.mpr ⟨hspec, List.nil_subset T⟩
    simpa using hpart (hT.singleton hspec) hsubset ds hcheck

/-- A test with a page class without its singleton, a setup without a teardown, and a text typed
into a field that may not be empty. The first and the last of them are at one place. -/
def untidyTest : Node where
  kind := .program
  children := .sequence
    [.node { kind := .classDeclaration, name := some "LoginPage",
             span := { line := .int 2, column := .int 4 } },
     .node { kind := .callExpression,
             callee := some { kind := .identifier, name := some "before" },
             arguments := [{ kind := .arrowFunctionExpression }],
             span := { line := .int 1, column := .null } },
     .node { kind := .callExpression,
             callee := some { kind := .memberExpression,
                              receiver := some { kind := .identifier, name := some "field" },
                              member := some { kind := .identifier, name := some "type" } },
             span := { line := .int 2, column := .int 4 } }]

/-- Without the rule on hooks the test gets the other two of its three diagnostics. -/
theorem checkTree_untidyTest : (∀ n ∈ untidyTest.preorder, n.hasWholePlace) ∧
    Selection {} Registry.builtin Registry.builtin ∧
    Selection {} Registry.builtin (Registry.builtin.filter (·.id ≠ "CY001")) ∧ ∃ ds,
      checkTree {} Registry.builtin (.node untidyTest) = .ok ds ∧
      ds.map Diagnostic.ruleId = ["CY001", "PAGE001", "CY002"] ∧
      checkTree {} (Registry.builtin.filter (·.id ≠ "CY001")) (.node untidyTest) =
        .ok (ds.filter fun d => d.ruleId ∈ ["PAGE001", "CY002"]) := by
  have hwhole : ∀ n ∈ untidyTest.preorder, n.hasWholePlace := by decide +kernel
  have hselection : ∀ {specs}, specs.Sublist Registry.builtin →
      Selection {} Registry.builtin specs := fun hspecs => ⟨.refl _, hspecs, by rintro _ _ ⟨⟩⟩
  have hall := hselection (List.Sublist.refl Registry.builtin)
  have hpart := hselection (List.filter_sublist (p := (·.id ≠ "CY001")))
  obtain ⟨ds, hds, hids⟩ := map_eq_ok.mp (by decide +kernel :
    (checkTree {} Registry.builtin (.node untidyTest)).map (List.map Diagnostic.ruleId) =
      .ok ["CY001", "PAGE001", "CY002"])
  exact ⟨hwhole, hall, hpart, ds, hds, hids,
    (checkTree_of_subset hwhole hpart hall List.filter_sublist.subset).1 ds hds⟩

end TreeLint
