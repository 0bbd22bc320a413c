import TreeLint.Proofs.Build.SourceOrder
import TreeLint.Proofs.Check.Independence
import TreeLint.Proofs.Rule.HookPairing

/-!
# The Earliest Setup

The rule on hooks reports a setup without a teardown at the first setup call that it meets. Where
the ranges of a document are nested, a walk meets nodes in the order of where they start, so this is
**the earliest one in the source** (`HookPairing.AtEarliest`), in whatever order the members of the
objects are written.

## Main results

* `exists_walkAll_reports`: rules on a built tree report what they report one by one, and the check
  of the tree gives these reports in some order.
* `HookPairing.mem_reports_spec`: what the rule on hooks reports on a tree.
* `walk_sourceOrder`: the walk of nested ranges, and the setup calls that are reported.
-/

namespace TreeLint

/-! ### Reports on built trees -/

/-- Rules on a built tree report **what they report one by one**. The check of the tree, where it
can be put in order, gives these reports. -/
theorem exists_walkAll_reports {document : Document} {root : Node} {settings : Settings}
    {specs : List RuleSpec} (h : Node.ofDocument document = .ok root)
    (hspecs : ∀ spec ∈ specs,
      spec ∈ Registry.builtin ∧ settings.levelFor spec.id spec.name ≠ .off) :
    ∃ runs runs', specs.mapM (RuleSpec.start settings) = .ok runs ∧
      RuleRun.walkAll runs (.node root) = ⟨runs', none⟩ ∧
      runs'.flatMap RuleRun.reported = specs.flatMap (RuleSpec.reports settings root) ∧
      ∀ ds, checkTree settings specs (.node root) = .ok ds →
        ds.Perm (runs'.flatMap RuleRun.reported) := by
  obtain ⟨runs, runs', hruns, hwalk, -⟩ := exists_walkAll_of_ofDocument h hspecs
  have hkinds : ∀ run ∈ runs, run.rule.listens.Nodup := by
    intro run hrun
    obtain ⟨spec, hspec, hrule⟩ := RuleSpec.exists_rule_of_mapM_start hruns hrun
    rw [hrule]
    exact (anchored_of_mem_builtin (hspecs spec hspec).1 settings).2.1
  have hpass := (RuleRun.fault_walkAll_eq_none_iff hkinds).mp (congrArg Outcome.fault hwalk)
  refine ⟨runs, runs', hruns, hwalk, ?_, fun ds hcheck => ?_⟩
  · obtain rfl : runs.map (fun run => (run.after root.preorder).finish) = runs' :=
      congrArg Outcome.state ((RuleRun.walkAll_of_pass hkinds hpass).symm.trans hwalk)
    exact (RuleSpec.of_mapM_start root hruns).2
  · rw [checkTree_of_walkAll hruns hwalk] at hcheck
    exact perm_of_sortBy? (mapError_eq_ok.mp hcheck)

namespace HookPairing

/-- A diagnostic about a pair is at the **first** call of the setup. -/
theorem mem_reports {severity : Severity} {calls : List Node} {pair : HookPair} {d : Diagnostic}
    (h : d ∈ reports severity calls pair) :
    d.message = message pair ∧ ∃ rest, calls.filter (isCallOf pair.setup) = d.node :: rest := by
  rw [reports] at h
  split at h
  · next first rest hcalls _ =>
    obtain rfl := List.mem_singleton.mp h
    exact ⟨rfl, rest, hcalls⟩
  · cases h

/-- What **the rule on hooks** reports on a tree is about the hook calls of the tree. -/
theorem mem_reports_spec {settings : Settings} {root : Node} {spec : RuleSpec}
    (hspec : spec ∈ Registry.builtin) (hid : spec.id = "CY001") {d : Diagnostic}
    (h : d ∈ spec.reports settings root) :
    ∃ pair ∈ settings.hookPairs, ∃ severity,
      d ∈ reports severity (root.preorder.filter isHookCall) pair := by
  rw [RuleSpec.reports] at h
  split at h
  · next run hrun =>
    obtain ⟨severity, -, rfl⟩ := RuleSpec.start_eq_ok.mp hrun
    have hrule : spec.build settings = rule settings.hookPairs := by
      have heq := Registry.eq_of_id_eq hspec
        (b := ⟨"CY001", "require-after-with-before", fun s => rule s.hookPairs⟩)
        (by simp [Registry.builtin]) hid
      rw [heq]
    have hrecorded : Recorded settings.hookPairs severity [] []
        { rule := spec.build settings, severity } :=
      ⟨hrule, rfl, List.forall_mem_nil _, rfl, rfl⟩
    rw [(hrecorded.after root.preorder).finish.reported, List.nil_append, List.nil_append] at h
    obtain ⟨pair, hpair, hd⟩ := List.mem_flatMap.mp h
    exact ⟨pair, hpair, severity, hd⟩
  · cases h

/-- A node is the **earliest** setup call of a pair: it is a hook call of the setup, and no other
one starts before it. -/
structure AtEarliest (pair : HookPair) (nodes : List Node) (n : Node) : Prop where
  mem : n ∈ nodes
  isHookCall : isHookCall n
  isCallOf : isCallOf pair.setup n
  le : ∀ m ∈ nodes, HookPairing.isHookCall m → HookPairing.isCallOf pair.setup m →
    n.startOffset ≤ m.startOffset

/-- Among nodes in the order of where they start, the first call of a setup is the earliest. -/
theorem atEarliest_of_filter {pair : HookPair} {nodes rest : List Node} {n : Node}
    (hnodes : nodes.Pairwise fun a b => a.startOffset ≤ b.startOffset)
    (h : (nodes.filter HookPairing.isHookCall).filter (HookPairing.isCallOf pair.setup) =
      n :: rest) : AtEarliest pair nodes n := by
  have hmem : ∀ m, m ∈ n :: rest ↔
      (m ∈ nodes ∧ HookPairing.isHookCall m) ∧ HookPairing.isCallOf pair.setup m := by
    intro m
    rw [← h, List.mem_filter, List.mem_filter]
  obtain ⟨⟨hn, hhook⟩, hsetup⟩ := (hmem n).mp List.mem_cons_self
  have hsorted := (hnodes.filter HookPairing.isHookCall).filter (HookPairing.isCallOf pair.setup)
  rw [h] at hsorted
  refine ⟨hn, hhook, hsetup, fun m hm hhook' hsetup' => ?_⟩
  rcases List.mem_cons.mp ((hmem m).mpr ⟨⟨hm, hhook'⟩, hsetup'⟩) with rfl | hlater
  · exact le_refl _
  · exact (List.pairwise_cons.mp hsorted).1 m hlater

end HookPairing

/-! ### Walks in source order -/

/-- **Source order.** Let a well-formed document with nested ranges have a tree. A walk of the tree
enters the nodes of all objects that describe nodes and are held, directly or not, by the whole
document, and enters them in the order of where they start. The rules of the library, as far as they
are switched on, walk it to its end, and every diagnostic of the rule on hooks is about a pair of
the settings and at the earliest of all setup calls of the pair among these nodes. -/
theorem walk_sourceOrder {document : Document} {top : NodeDocument} {root : Node}
    (htop : document.node? = some top) (hwf : top.WellFormed) (hnested : top.Nested)
    (h : Node.ofDocument document = .ok root) :
    ∃ built, ∃ objects : List NodeDocument, NodeTable top built ∧
      (∀ d, d ∈ objects ↔ Relation.ReflTransGen NodeDocument.Holds top d) ∧
      ∃ entered, recorder.walk (.node root) [] = ⟨entered, none⟩ ∧
        entered = objects.map built.node ∧
        (∀ n ∈ entered, n.span.start = .int n.startOffset) ∧
        (entered.Pairwise fun a b => a.startOffset ≤ b.startOffset) ∧
        ∀ settings specs, (∀ spec ∈ specs,
            spec ∈ Registry.builtin ∧ settings.levelFor spec.id spec.name ≠ .off) →
          ∃ runs runs', specs.mapM (RuleSpec.start settings) = .ok runs ∧
            RuleRun.walkAll runs (.node root) = ⟨runs', none⟩ ∧
            (∀ ds, checkTree settings specs (.node root) = .ok ds →
              ds.Perm (runs'.flatMap RuleRun.reported)) ∧
            ∀ d ∈ runs'.flatMap RuleRun.reported, d.ruleId = "CY001" →
              ∃ pair ∈ settings.hookPairs, d.message = HookPairing.message pair ∧
                HookPairing.AtEarliest pair entered d.node := by
  obtain ⟨built, htable, rfl⟩ := exists_table hwf htop h
  have hsorted := hnested.pairwise_preorder htable (.refl top)
  -- the nodes of the walk are those of the objects that can be reached
  obtain ⟨objects, hobjects, hpreorder⟩ := htable.exists_visits (.refl top)
  have hmem : ∀ d, d ∈ objects ↔ top.Reaches d := fun d =>
    hobjects.mem_iff.trans NodeDocument.mem_postOrder
  refine ⟨built, objects, htable, fun d => ?_, _, walk_recorder htable.isTree, hpreorder,
    fun n hn => ?_, hsorted, fun settings specs hspecs => ?_⟩
  · rw [hmem, NodeDocument.reaches_iff_holds]
  · rw [hpreorder] at hn
    obtain ⟨d, hd, rfl⟩ := List.mem_map.mp hn
    have hreaches := (hmem d).mp hd
    rw [htable.startOffset hreaches, (htable.made d hreaches).span]
    exact hnested.start d hreaches
  · obtain ⟨runs, runs', hruns, hwalk, hreported, hcheck⟩ := exists_walkAll_reports h hspecs
    refine ⟨runs, runs', hruns, hwalk, hcheck, fun d hd hid => ?_⟩
    rw [hreported] at hd
    obtain ⟨spec, hspec, hd⟩ := List.mem_flatMap.mp hd
    have hbuiltin := (hspecs spec hspec).1
    have hspecId := (RuleSpec.node_mem_of_mem_reports hbuiltin hd).2.symm.trans hid
    obtain ⟨pair, hpair, severity, hd⟩ := HookPairing.mem_reports_spec hbuiltin hspecId hd
    obtain ⟨hmessage, rest, hfirst⟩ := HookPairing.mem_reports hd
    exact ⟨pair, hpair, hmessage, HookPairing.atEarliest_of_filter hsorted hfirst⟩

/-- Two setups without a teardown. The later one is before the earlier one in the document. -/
def twoSetups : Document :=
  let setup (label : ℕ) (start : ℤ) : Document :=
    .obj label [("type", .str "CallExpression"), ("range", .arr [.int start, .int (start + 20)]),
      ("arguments", .arr [.obj (label + 1) [("type", .str "ArrowFunctionExpression"),
        ("range", .arr [.int (start + 7), .int (start + 15)])]]),
      ("callee", .obj (label + 2) [("type", .str "Identifier"), ("name", .str "before"),
        ("range", .arr [.int start, .int (start + 6)])])]
  .obj 0 [("type", .str "Program"), ("range", .arr [.int 0, .int 60]),
    ("footer", setup 1 30), ("body", .arr [setup 4 0])]

/-- The missing teardown is reported at the setup that is first in the source. -/
theorem walk_twoSetups : ∃ top root, twoSetups.node? = some top ∧ top.WellFormed ∧ top.Nested ∧
    Node.ofDocument twoSetups = .ok root ∧
    ∃ entered, recorder.walk (.node root) [] = ⟨entered, none⟩ ∧
      (entered.Pairwise fun a b => a.startOffset ≤ b.startOffset) ∧
      ∃ ds, checkTree {} Registry.builtin (.node root) = .ok ds ∧
        ds.map (fun d => (d.ruleId, d.node.label)) = [("CY001", 4)] ∧
        ∀ d ∈ ds, ∃ pair : HookPair, HookPairing.AtEarliest pair entered d.node := by
  have hranges : ∀ top ∈ twoSetups.node?, ∀ d ∈ top.postOrder,
      (d.span.start.isWhole && !d.span.start.isNull) ∧
      (d.span.stop.isWhole && !d.span.stop.isNull) ∧ d.startOffset < d.stopOffset ∧
      (∀ c ∈ d.children, d.startOffset ≤ c.startOffset ∧ c.stopOffset ≤ d.stopOffset) ∧
      d.children.Pairwise fun a b =>
        a.stopOffset ≤ b.startOffset ∨ b.stopOffset ≤ a.startOffset := by decide +kernel
  have hcheck : ((Node.ofDocument twoSetups).toOption.bind fun root =>
      (checkTree {} Registry.builtin (.node root)).toOption.map fun ds =>
        ds.map fun d => (d.ruleId, d.node.label)) = some [("CY001", 4)] := by decide +kernel
  obtain ⟨top, htop⟩ := Option.isSome_iff_exists.mp (by decide +kernel : twoSetups.node?.isSome)
  have hwf := NodeDocument.wellFormed_of_nodup_labels (by decide +kernel) (by decide +kernel) htop
  have hreached := fun d (hd : top.Reaches d) =>
    hranges top htop d (NodeDocument.mem_postOrder.mpr hd)
  have hnested : top.Nested :=
    ⟨fun d hd => Value.eq_int_whole (hreached d hd).1,
      fun d hd => Value.eq_int_whole (hreached d hd).2.1, fun d hd => (hreached d hd).2.2.1,
      fun d hd => (hreached d hd).2.2.2.1, fun d hd => (hreached d hd).2.2.2.2⟩
  cases hroot : Node.ofDocument twoSetups with
  | error fault =>
      rw [hroot] at hcheck
      cases hcheck
  | ok root =>
      obtain ⟨-, -, -, -, entered, hentered, -, -, hsorted, hrules⟩ :=
        walk_sourceOrder htop hwf hnested hroot
      obtain ⟨-, runs', -, -, hperm, hearliest⟩ :=
        hrules {} Registry.builtin fun spec hspec => ⟨hspec, nofun⟩
      refine ⟨top, root, htop, hwf, hnested, rfl, entered, hentered, hsorted, ?_⟩
      cases hds : checkTree {} Registry.builtin (.node root) with
      | error fault =>
          rw [hroot] at hcheck
          simp [Except.toOption, hds] at hcheck
      | ok ds =>
          have hids : ds.map (fun d => (d.ruleId, d.node.label)) = [("CY001", 4)] := by
            rw [hroot] at hcheck
            simpa [Except.toOption, hds] using hcheck
          refine ⟨ds, rfl, hids, fun d hd => ?_⟩
          have hid : (d.ruleId, d.node.label) ∈ [("CY001", 4)] :=
            hids ▸ List.mem_map_of_mem (f := fun d : Diagnostic => (d.ruleId, d.node.label)) hd
          obtain ⟨pair, -, -, hpair⟩ := hearliest d ((hperm ds hds).subset hd)
            (congrArg Prod.fst (List.mem_singleton.mp hid))
          exact ⟨pair, hpair⟩

end TreeLint
