import TreeLint.Proofs.Check.FirstFault
import TreeLint.Proofs.Rule.Impartial
import TreeLint.Proofs.Sorting.Naturality

/-!
# Checks and the Order of Keys

Alike trees are **checked alike** (`checkTree_agrees`). A walk meets alike nodes in turn, so
impartial rules stop it at one place for one reason or report the same, and the places of
diagnostics at alike nodes compare alike, so the reports are put in one order. With what is known of
rearranged documents this makes the check of a document independent of **the order of its keys**.

## Main results

* `Alike.preorder`: walks of alike trees.
* `checkTree_agrees`: checks of alike trees.
* `checkTree_of_rearranges`: checks of rearranged documents.
-/

namespace TreeLint

open Sorting

/-- Diagnostics that are the same at **alike nodes**. -/
structure Diagnostic.Alike (a b : Diagnostic) : Prop where
  node : a.node.Alike b.node
  violation : b.violation = a.violation
  message : b.message = a.message
  ruleId : b.ruleId = a.ruleId
  ruleName : b.ruleName = a.ruleName
  severity : b.severity = a.severity

/-! ### Walks -/

/-- Walks of alike trees meet **alike nodes** one by one. -/
theorem Node.Alike.preorder {n m : Node} (h : n.Alike m) :
    List.Forall₂ Node.Alike n.preorder m.preorder := by
  induction h with
  | @of R n m h hR ih =>
      rw [Node.preorder_eq, Node.preorder_eq]
      exact .cons (.of h hR) (List.rel_flatMap h.children fun {a b} hab => ih a b hab)

/-- What is found first in related lists is **the same**, if it is so for related items. -/
theorem findSome?_eq_of_forall₂ {α β γ : Type} {R : α → β → Prop} {xs : List α} {ys : List β}
    {f : α → Option γ} {g : β → Option γ} (h : List.Forall₂ R xs ys)
    (hfg : ∀ x y, R x y → f x = g y) : xs.findSome? f = ys.findSome? g := by
  induction h with
  | nil => rfl
  | cons hxy _ ih => rw [List.findSome?_cons, List.findSome?_cons, hfg _ _ hxy, ih]

namespace Rule

/-- An impartial rule refuses alike nodes for **the same fault**, or neither. -/
theorem Impartial.refusal?_eq {rule : Rule} (hrule : rule.Impartial) {n m : Node}
    (h : n.Alike m) : rule.refusal? n = rule.refusal? m := by
  rw [refusal?, refusal?, h.toMatches.kind, (hrule.check n m h).fault?_eq]

/-- Impartial rules **stop** at alike nodes for one reason. -/
theorem stop?_eq {rules : List Rule} (hrules : ∀ rule ∈ rules, rule.Impartial) {n m : Node}
    (h : n.Alike m) : stop? rules n = stop? rules m := by
  have hsame : List.Forall₂ (fun r s => r = s ∧ r.Impartial) rules rules :=
    List.forall₂_same.mpr fun rule hrule => ⟨rfl, hrules rule hrule⟩
  have hrefusal : rules.findSome? (·.refusal? n) = rules.findSome? (·.refusal? m) :=
    findSome?_eq_of_forall₂ hsame fun r _ hr => hr.1 ▸ hr.2.refusal?_eq h
  have hchildren := h.toMatches.hasChildNodes
  rw [stop?, stop?, hrefusal, Node.hasChildNodes_iff.mp hchildren.1,
    Node.hasChildNodes_iff.mp hchildren.2]

/-- An impartial rule has **alike findings** on alike nodes. -/
theorem Impartial.findings {rule : Rule} (hrule : rule.Impartial) {n m : Node} (h : n.Alike m) :
    List.Forall₂ Finding.Alike (rule.findings n) (rule.findings m) := by
  have hcheck := hrule.check n m h
  rw [Rule.findings, Rule.findings]
  generalize rule.check n = x, rule.check m = y at hcheck
  cases hcheck with
  | error => exact .nil
  | ok hfg => exact hfg

/-- A rule heeds **alike nodes** among alike nodes. -/
theorem alike_heeded (rule : Rule) {nodes nodes' : List Node}
    (h : List.Forall₂ Node.Alike nodes nodes') :
    List.Forall₂ Node.Alike (rule.heeded nodes) (rule.heeded nodes') :=
  List.rel_filter (fun {n m} hnm => by simp only [hnm.toMatches.kind]) h

end Rule

/-! ### Reports -/

/-- A rule **reports the same** after alike nodes. -/
theorem RuleRun.alike_finish_after {run : RuleRun} (hrule : run.rule.Impartial)
    (hfresh : run.seen = [] ∧ run.reported = []) {nodes nodes' : List Node}
    (h : List.Forall₂ Node.Alike nodes nodes') :
    List.Forall₂ Diagnostic.Alike (run.after nodes).finish.reported
      (run.after nodes').finish.reported := by
  have hstamp : ∀ fs gs : List Finding, List.Forall₂ Finding.Alike fs gs →
      List.Forall₂ Diagnostic.Alike (fs.map run.stamp) (gs.map run.stamp) := fun fs gs hfs =>
    List.rel_map (fun {f g} hfg => ⟨hfg.node, hfg.violation, hfg.message, rfl, rfl, rfl⟩) hfs
  have hheeded := run.rule.alike_heeded h
  simp only [finish, after, hfresh, List.nil_append]
  exact List.rel_append
    (List.rel_flatMap hheeded fun {n m} hnm => hstamp _ _ (hrule.findings hnm))
    (hstamp _ _ (hrule.finish _ _ hheeded))

/-- The rules of the library report **alike diagnostics** on alike trees. -/
theorem RuleSpec.alike_reports {spec : RuleSpec} (hspec : spec ∈ Registry.builtin)
    (settings : Settings) {root root' : Node} (h : root.Alike root') :
    List.Forall₂ Diagnostic.Alike (spec.reports settings root) (spec.reports settings root') := by
  rw [reports, reports]
  cases hrun : spec.start settings with
  | error fault => exact .nil
  | ok run =>
      obtain ⟨severity, -, rfl⟩ := start_eq_ok.mp hrun
      exact RuleRun.alike_finish_after (impartial_of_mem_builtin hspec settings) ⟨rfl, rfl⟩
        h.preorder

/-- Diagnostics at alike nodes have **rearranged positions**, so these compare alike. -/
theorem Diagnostic.Alike.position {a b : Diagnostic} (h : a.Alike b) :
    a.position.Rearranges b.position := by
  have hspan := h.node.toMatches.span
  have hzero : (Value.int 0 : Json).Rearranges (.int 0) := by decide
  rw [Diagnostic.position, Diagnostic.position, Diagnostic.line, Diagnostic.line,
    Diagnostic.column, Diagnostic.column, hspan.line.isNull, hspan.column.isBlank]
  split
  · exact .arr (.cons (by decide) (.cons hzero .nil))
  · refine .arr (.cons hspan.line (.cons ?_ .nil))
    split
    · exact hzero
    · exact hspan.column

/-- Alike trees are **checked alike**: for one reason they cannot be, or the diagnostics are the
same and in the same order. -/
theorem checkTree_agrees {root root' : Node} (h : root.Alike root') (settings : Settings)
    {specs : List RuleSpec} (hspecs : ∀ spec ∈ specs, spec ∈ Registry.builtin) :
    Agrees (List.Forall₂ Diagnostic.Alike) (checkTree settings specs (.node root))
      (checkTree settings specs (.node root')) := by
  cases hruns : specs.mapM (RuleSpec.start settings) with
  | error fault =>
      have hfault : ∀ n, checkTree settings specs n = .error fault := by
        intro n
        rw [checkTree, hruns]
        rfl
      rw [hfault, hfault]
      exact .error fault
  | ok runs =>
      have hkinds : ∀ run ∈ runs, run.rule.listens.Nodup := by
        intro run hrun
        obtain ⟨spec, hspec, hrule⟩ := RuleSpec.exists_rule_of_mapM_start hruns hrun
        rw [hrule]
        exact (anchored_of_mem_builtin (hspecs spec hspec) settings).2.1
      have himpartial : ∀ rule ∈ runs.map RuleRun.rule, rule.Impartial := by
        rw [List.forall_mem_map]
        intro run hrun
        obtain ⟨spec, hspec, hrule⟩ := RuleSpec.exists_rule_of_mapM_start hruns hrun
        rw [hrule]
        exact impartial_of_mem_builtin (hspecs spec hspec) settings
      -- both walks are stopped at one place of the pre-order, or neither is
      have hfaults : (RuleRun.walkAll runs (.node root)).fault =
          (RuleRun.walkAll runs (.node root')).fault := by
        rw [RuleRun.fault_walkAll hkinds, RuleRun.fault_walkAll hkinds]
        exact findSome?_eq_of_forall₂ h.preorder fun _ _ => Rule.stop?_eq himpartial
      cases hfault : (RuleRun.walkAll runs (.node root)).fault with
      | some fault =>
          rw [checkTree_of_fault hruns hfault, checkTree_of_fault hruns (hfaults ▸ hfault)]
          exact .error _
      | none =>
          have hwalk : ∀ n, (RuleRun.walkAll runs (.node n)).fault = none →
              checkTree settings specs (.node n) =
                (sortDiagnostics (specs.flatMap (RuleSpec.reports settings n))).mapError
                  .unordered := by
            intro n hn
            have hpass := (RuleRun.fault_walkAll_eq_none_iff hkinds).mp hn
            rw [checkTree_of_walkAll hruns (RuleRun.walkAll_of_pass hkinds hpass),
              (RuleSpec.of_mapM_start n hruns).2]
          have hsame : List.Forall₂ (fun s t => s = t ∧ s ∈ Registry.builtin) specs specs :=
            List.forall₂_same.mpr fun spec hspec => ⟨rfl, hspecs spec hspec⟩
          rw [hwalk root hfault, hwalk root' (hfaults ▸ hfault)]
          refine (sortBy?_forall₂ (fun _ _ _ _ hab hcd => hab.position.before hcd.position)
            ?_).mapError _
          exact List.rel_flatMap hsame fun {spec _} hspec =>
            hspec.1 ▸ RuleSpec.alike_reports hspec.2 settings h

/-! ### Rearranged documents -/

/-- **The order of keys means nothing.** Let a document have a tree, with children that start at
whole numbers and, under different keys of one object, at different places. However the members of
its objects are rearranged, at whatever depth, the document has a tree that is alike, and under all
settings the rules of the library find the same in the two trees, in the same order. -/
theorem checkTree_of_rearranges {document document' : Document} {top : NodeDocument} {root : Node}
    (h : document.Rearranges document') (htop : document.node? = some top)
    (hcoherent : top.Coherent) (hcoherent' : ∀ top', document'.node? = some top' → top'.Coherent)
    (hapart : top.StartsApart) (hroot : Node.ofDocument document = .ok root) :
    ∃ root', Node.ofDocument document' = .ok root' ∧ root.Alike root' ∧
      ∀ settings specs, (∀ spec ∈ specs, spec ∈ Registry.builtin) →
        Agrees (List.Forall₂ Diagnostic.Alike) (checkTree settings specs (.node root))
          (checkTree settings specs (.node root')) := by
  obtain ⟨root', hroot', halike⟩ :=
    exists_ofDocument_of_rearranges h htop hcoherent hcoherent' hapart hroot
  exact ⟨root', hroot', halike, fun settings _ hspecs => checkTree_agrees halike settings hspecs⟩

/-- A setup without a teardown. -/
def setupCall : Document :=
  .obj 0 [("type", .str "Program"), ("range", .arr [.int 0, .int 24]),
    ("body", .arr [.obj 1 [("type", .str "CallExpression"), ("range", .arr [.int 0, .int 24]),
      ("loc", .obj 2 [("start", .obj 3 [("line", .int 1), ("column", .int 0)])]),
      ("callee", .obj 4 [("type", .str "Identifier"), ("name", .str "before"),
        ("range", .arr [.int 0, .int 6])]),
      ("arguments", .arr [.obj 5 [("type", .str "ArrowFunctionExpression"), ("start", .int 7)]])]])]

/-- The same setup, with the members of its objects in another order. -/
def rearrangedSetupCall : Document :=
  .obj 0 [("body", .arr [.obj 1 [
      ("arguments", .arr [.obj 5 [("start", .int 7), ("type", .str "ArrowFunctionExpression")]]),
      ("type", .str "CallExpression"),
      ("callee", .obj 4 [("name", .str "before"), ("range", .arr [.int 0, .int 6]),
        ("type", .str "Identifier")]),
      ("range", .arr [.int 0, .int 24]),
      ("loc", .obj 2 [("start", .obj 3 [("column", .int 0), ("line", .int 1)])])]]),
    ("range", .arr [.int 0, .int 24]), ("type", .str "Program")]

/-- The missing teardown is reported in either order. -/
theorem checkTree_setupCall : setupCall.Rearranges rearrangedSetupCall ∧
    ∃ root root', Node.ofDocument setupCall = .ok root ∧
      Node.ofDocument rearrangedSetupCall = .ok root' ∧ root.Alike root' ∧
      ∃ ds ds', checkTree {} Registry.builtin (.node root) = .ok ds ∧
        checkTree {} Registry.builtin (.node root') = .ok ds' ∧
        ds.map Diagnostic.ruleId = ["CY001"] ∧ List.Forall₂ Diagnostic.Alike ds ds' := by
  have hrel : setupCall.Rearranges rearrangedSetupCall := by decide +kernel
  have hranges : ∀ top ∈ setupCall.node?, ∀ d ∈ top.postOrder,
      (∀ c ∈ d.children, c.span.start.isWhole && !c.span.start.isNull) ∧
      ∀ p ∈ d.parts, ∀ q ∈ d.parts, p.1 ≠ q.1 →
        ∀ a ∈ p.2.toList, ∀ b ∈ q.2.toList, a.startOffset ≠ b.startOffset := by decide +kernel
  have hcheck : ((Node.ofDocument setupCall).toOption.bind fun root =>
      (checkTree {} Registry.builtin (.node root)).toOption.map fun ds =>
        ds.map Diagnostic.ruleId) = some ["CY001"] := by decide +kernel
  obtain ⟨top, htop⟩ := Option.isSome_iff_exists.mp (by decide +kernel : setupCall.node?.isSome)
  have hwf := NodeDocument.wellFormed_of_nodup_labels (by decide +kernel) (by decide +kernel) htop
  have hwf' : ∀ top', rearrangedSetupCall.node? = some top' → top'.WellFormed := fun top' htop' =>
    NodeDocument.wellFormed_of_nodup_labels (by decide +kernel) (by decide +kernel) htop'
  have hreached := fun d (hd : top.Reaches d) =>
    hranges top htop d (NodeDocument.mem_postOrder.mpr hd)
  have hapart : top.StartsApart :=
    ⟨fun d hd c hc => Value.eq_int_whole ((hreached d hd).1 c hc), fun d hd => (hreached d hd).2⟩
  cases hroot : Node.ofDocument setupCall with
  | error fault =>
      rw [hroot] at hcheck
      cases hcheck
  | ok root =>
      obtain ⟨root', hroot', halike, hagrees⟩ := checkTree_of_rearranges hrel htop hwf.coherent
        (fun top' htop' => (hwf' top' htop').coherent) hapart hroot
      have hagrees := hagrees {} Registry.builtin fun spec hspec => hspec
      refine ⟨hrel, root, root', rfl, hroot', halike, ?_⟩
      rw [hroot] at hcheck
      simp only [Except.toOption, Option.bind_some, Option.map_eq_some_iff] at hcheck
      obtain ⟨ds, hds, hids⟩ := hcheck
      generalize checkTree {} Registry.builtin (.node root) = x,
        checkTree {} Registry.builtin (.node root') = y at hagrees hds
      cases hagrees with
      | error => cases hds
      | @ok ds₁ ds₂ hsame =>
          obtain rfl : ds₁ = ds := Option.some.inj hds
          exact ⟨_, _, rfl, rfl, hids, hsame⟩

end TreeLint
