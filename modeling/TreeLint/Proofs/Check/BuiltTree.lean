import TreeLint.Lint.Trees
import TreeLint.Proofs.Build.Lookup
import TreeLint.Proofs.Rule.Acceptance
import TreeLint.Proofs.Walk.Invariant

/-!
# Checking Built Trees

The rules that come with the library walk a built tree to its end: they refuse no node of it
(`exists_walkAll`). After that only the order of the diagnostics can fail, since lines and columns
are whatever the document holds. Where these are whole numbers or missing, any two diagnostics can
be compared, and the tree gets its report.

During the walk the rules at work stay the rules that they were, and everything that they have seen
or reported is a node of the tree (`AtWork`); each look at a node preserves this.

## Main results

* `exists_walkAll`: accepting rules walk a sound tree to its end.
* `exists_sortDiagnostics`: diagnostics at whole positions have an order.
* `lintTree_of_ofDocument`: a built tree is walked without a fault and, with whole positions, gets
  a report without an error.
-/

namespace TreeLint

/-! ### Rules at work -/

/-- Rules **at work** on nodes of a sort: the rules are given ones, and all that they have seen and
reported is of the sort. -/
structure AtWork (rules : List Rule) (R : Node → Prop) (runs : List RuleRun) : Prop where
  rules : runs.map RuleRun.rule = rules
  seen : ∀ run ∈ runs, ∀ n ∈ run.seen, R n
  reported : ∀ run ∈ runs, ∀ d ∈ run.reported, R d.node

namespace AtWork

variable {rules : List Rule} {R : Node → Prop} {runs : List RuleRun}

/-- One rule can go on with its work, as long as it stays the same rule. -/
theorem set (h : AtWork rules R runs) {i : ℕ} {run run' : RuleRun} (hrun : runs[i]? = some run)
    (hrule : run'.rule = run.rule) (hseen : ∀ n ∈ run'.seen, R n)
    (hreported : ∀ d ∈ run'.reported, R d.node) : AtWork rules R (runs.set i run') where
  rules := by
    obtain ⟨hi, rfl⟩ := List.getElem?_eq_some_iff.mp hrun
    rw [List.map_set, hrule, ← List.getElem_map RuleRun.rule (h := by simpa using hi),
      List.set_getElem_self, h.rules]
  seen run'' hmem := by
    rcases List.mem_or_eq_of_mem_set hmem with hmem | rfl
    · exact h.seen run'' hmem
    · exact hseen
  reported run'' hmem := by
    rcases List.mem_or_eq_of_mem_set hmem with hmem | rfl
    · exact h.reported run'' hmem
    · exact hreported

/-- An accepting rule **looks at a node** of a sound tree without refusing it. -/
theorem exists_enterAt (h : AtWork rules R runs) {i : ℕ} {rule : Rule}
    (hrule : rules[i]? = some rule) (haccepting : rule.Accepting) {n : Node}
    (hkind : n.kind ∈ rule.listens) (hsound : n.Throughout Node.Sound) (hn : R n) :
    ∃ runs', RuleRun.enterAt i n runs = .ok runs' ∧ AtWork rules R runs' := by
  rw [← h.rules, List.getElem?_map, Option.map_eq_some_iff] at hrule
  obtain ⟨run, hrun, rfl⟩ := hrule
  have hmem := List.mem_of_getElem? hrun
  obtain ⟨findings, hcheck, hfindings⟩ := haccepting.check n hkind hsound
  have henter : RuleRun.enterAt i n runs = .ok (runs.set i { run with
      seen := run.seen ++ [n], reported := run.reported ++ findings.map run.stamp }) := by
    simp only [RuleRun.enterAt, hrun, RuleRun.enter, hcheck]
  refine ⟨_, henter, h.set hrun rfl ?_ ?_⟩
  · intro m hm
    rcases List.mem_append.mp hm with hm | hm
    · exact h.seen run hmem m hm
    · rwa [List.mem_singleton.mp hm]
  · intro d hd
    rcases List.mem_append.mp hd with hd | hd
    · exact h.reported run hmem d hd
    · obtain ⟨f, hf, rfl⟩ := List.mem_map.mp hd
      change R f.node
      rwa [hfindings f hf]

/-- A rule **looks back** and reports only what it has seen. -/
theorem modify_finish (h : AtWork rules R runs) (haccepting : ∀ rule ∈ rules, rule.Accepting)
    (i : ℕ) : AtWork rules R (runs.modify i RuleRun.finish) := by
  rw [List.modify_eq_set_getElem?]
  cases hrun : runs[i]? with
  | none => exact h
  | some run =>
      have hmem := List.mem_of_getElem? hrun
      refine h.set hrun rfl (h.seen run hmem) fun d hd => ?_
      rcases List.mem_append.mp hd with hd | hd
      · exact h.reported run hmem d hd
      · obtain ⟨f, hf, rfl⟩ := List.mem_map.mp hd
        have hrule := haccepting run.rule (h.rules ▸ List.mem_map_of_mem hmem)
        exact h.seen run hmem f.node (hrule.finish run.seen f hf)

end AtWork

/-- The listeners of accepting rules keep them at work and refuse no node of a sound tree. -/
theorem preserve_listeners {runs : List RuleRun} {R : Node → Prop}
    (haccepting : ∀ run ∈ runs, run.rule.Accepting) :
    (RuleRun.listeners runs).Preserve (fun n => n.Throughout Node.Sound ∧ R n)
      (AtWork (runs.map RuleRun.rule) R) where
  enter := by
    intro kind listener hmem n state hkind hn hstate
    obtain ⟨⟨run, i⟩, hrun, hlistener⟩ := List.mem_flatMap.mp hmem
    obtain ⟨k, hk, heq⟩ := List.mem_map.mp hlistener
    obtain ⟨rfl, rfl⟩ := Prod.mk.inj heq
    have hrun : runs[i]? = some run := List.mem_zipIdx_iff_getElem?.mp hrun
    have hrule : (runs.map RuleRun.rule)[i]? = some run.rule := by
      rw [List.getElem?_map, hrun]
      rfl
    exact hstate.exists_enterAt hrule (haccepting run (List.mem_of_getElem? hrun)) (hkind ▸ hk)
      hn.1 hn.2
  leave := nofun
  finish := by
    intro f hf state hstate
    obtain ⟨⟨run, i⟩, -, rfl⟩ := List.mem_map.mp hf
    refine hstate.modify_finish (fun rule hrule => ?_) i
    obtain ⟨run, hrun, rfl⟩ := List.mem_map.mp hrule
    exact haccepting run hrun

/-- A node leads to every node that a walk from it visits. -/
theorem Node.leadsTo_of_mem_preorder {n m : Node} (h : m ∈ n.preorder) : n.LeadsTo m := by
  induction n using Node.induction_childNodes with
  | h n ih =>
      rw [Node.preorder_eq, List.mem_cons, List.mem_flatMap] at h
      rcases h with rfl | ⟨c, hc, hm⟩
      · exact .refl
      · exact .head (by simp [Node.referents, hc]) (ih c hc hm)

/-- Accepting rules **walk a sound tree to its end**, and report only nodes of it. -/
theorem exists_walkAll {root : Node} {runs : List RuleRun} (hroot : root.Throughout Node.Sound)
    (haccepting : ∀ run ∈ runs, run.rule.Accepting)
    (hfresh : ∀ run ∈ runs, run.seen = [] ∧ run.reported = []) :
    ∃ runs', RuleRun.walkAll runs (.node root) = ⟨runs', none⟩ ∧
      ∀ d ∈ runs'.flatMap RuleRun.reported, root.LeadsTo d.node := by
  have hstart : AtWork (runs.map RuleRun.rule) root.LeadsTo runs :=
    ⟨rfl, fun run hrun => by simp [hfresh run hrun], fun run hrun => by simp [hfresh run hrun]⟩
  have hnodes : ∀ m ∈ root.preorder,
      (m.Throughout Node.Sound ∧ root.LeadsTo m) ∧ m.HasChildNodes := by
    intro m hm
    have hm := Node.leadsTo_of_mem_preorder hm
    exact ⟨⟨hroot.of_leadsTo hm, hm⟩, (hroot m hm).children⟩
  obtain ⟨runs', hwalk, hruns'⟩ :=
    exists_walk_of_preserve (preserve_listeners haccepting) hnodes hstart
  refine ⟨runs', hwalk, fun d hd => ?_⟩
  obtain ⟨run, hrun, hd⟩ := List.mem_flatMap.mp hd
  exact hruns'.reported run hrun d hd

/-! ### Starting the rules -/

/-- Rules that are not switched off can be started, each with nothing seen and nothing reported. -/
theorem exists_start {settings : Settings} {specs : List RuleSpec}
    (h : ∀ spec ∈ specs, settings.levelFor spec.id spec.name ≠ .off) :
    ∃ runs, specs.mapM (RuleSpec.start settings) = .ok runs ∧
      ∀ run ∈ runs, (run.seen = [] ∧ run.reported = []) ∧
        ∃ spec ∈ specs, run.rule = spec.build settings := by
  induction specs with
  | nil => exact ⟨[], rfl, nofun⟩
  | cons spec specs ih =>
      obtain ⟨runs, hruns, hspec⟩ := ih fun s hs => h s (List.mem_cons_of_mem spec hs)
      obtain ⟨severity, hseverity⟩ :
          ∃ severity, (settings.levelFor spec.id spec.name).severity = .ok severity := by
        have hlevel := h spec List.mem_cons_self
        cases hcase : settings.levelFor spec.id spec.name with
        | error => exact ⟨_, rfl⟩
        | warn => exact ⟨_, rfl⟩
        | off => exact absurd hcase hlevel
      refine ⟨{ rule := spec.build settings, severity } :: runs, ?_, ?_⟩
      · rw [List.mapM_cons, hruns]
        simp only [RuleSpec.start, hseverity]
        rfl
      · intro run hrun
        rcases List.mem_cons.mp hrun with rfl | hrun
        · exact ⟨⟨rfl, rfl⟩, spec, List.mem_cons_self, rfl⟩
        · obtain ⟨hfresh, s, hs, hrule⟩ := hspec run hrun
          exact ⟨hfresh, s, List.mem_cons_of_mem spec hs, hrule⟩

/-! ### Whole positions -/

/-- Whether the line and the column of a node are whole numbers or missing. -/
def Node.hasWholePlace (n : Node) : Bool := n.span.line.isWhole && n.span.column.isWhole

/-- Whether the line and the column that an object holds are whole numbers or missing. -/
def NodeDocument.hasWholePlace (d : NodeDocument) : Bool :=
  let start := (d.getD "loc").getD "start"
  (start.getD "line").isWhole && (start.getD "column").isWhole

/-- The line and the column of a node come **from its object**, whatever its offsets are. -/
theorem NodeDocument.span_place (d : NodeDocument) :
    d.span.line = (((d.getD "loc").getD "start").getD "line").erase ∧
      d.span.column = (((d.getD "loc").getD "start").getD "column").erase := by
  rw [span]
  cases hstart : (d.getD "loc").getD "start" with
  | obj label members => exact ⟨rfl, rfl⟩
  | _ => exact ⟨rfl, rfl⟩

/-- A made node is at the place that its document holds. -/
theorem hasWholePlace_of_makeNode {d : NodeDocument} {parts : Parts} {n : Node}
    (h : d.makeNode parts = .ok n) : n.hasWholePlace = d.hasWholePlace := by
  obtain ⟨hline, hcolumn⟩ := d.span_place
  rw [Node.hasWholePlace, (NodeDocument.made_of_makeNode h).span, hline, hcolumn,
    Value.isWhole_erase, Value.isWhole_erase, NodeDocument.hasWholePlace]

/-- The position of a diagnostic at a whole place is a pair of whole numbers. -/
theorem exists_position {d : Diagnostic} (h : d.node.hasWholePlace) :
    ∃ line column : ℤ, d.position = .arr [.int line, .int column] := by
  rw [Node.hasWholePlace, Bool.and_eq_true, Value.isWhole_iff, Value.isWhole_iff] at h
  obtain ⟨hline, hcolumn⟩ := h
  rw [Diagnostic.position, Diagnostic.line, Diagnostic.column]
  rcases hline with hline | ⟨line, hline⟩
  · exact ⟨Diagnostic.unknownLine, 0, by simp [hline, Value.isNull]⟩
  · rcases hcolumn with hcolumn | ⟨column, hcolumn⟩
    · exact ⟨line, 0, by simp [hline, hcolumn, Value.isNull, Value.isBlank]⟩
    · by_cases hzero : column = 0
      · exact ⟨line, 0, by simp [hline, hcolumn, Value.isNull, Value.isBlank, hzero]⟩
      · exact ⟨line, column, by simp [hline, hcolumn, Value.isNull, Value.isBlank, hzero]⟩

/-- Two pairs of whole numbers can be compared. -/
theorem exists_before_pair (a b c d : ℤ) :
    ∃ comes, (Value.arr [.int a, .int b] : Json).before (.arr [.int c, .int d] : Json) =
      .ok comes := by
  simp only [Value.before, Value.itemsBefore]
  split
  · split
    · exact ⟨_, rfl⟩
    · exact ⟨_, rfl⟩
  · exact ⟨_, rfl⟩

/-- Diagnostics at whole places **have an order**. -/
theorem exists_sortDiagnostics {ds : List Diagnostic} (h : ∀ d ∈ ds, d.node.hasWholePlace) :
    ∃ sorted, sortDiagnostics ds = .ok sorted := by
  refine exists_sortBy?_eq_ok fun a ha b hb => ?_
  obtain ⟨line, column, hposition⟩ := exists_position (h a ha)
  obtain ⟨line', column', hposition'⟩ := exists_position (h b hb)
  rw [hposition, hposition']
  exact exists_before_pair line column line' column'

/-! ### Reports on built trees -/

section BuiltTree

variable {document : Document} {root : Node} {settings : Settings} {specs : List RuleSpec}

/-- Rules of the library that are switched on can be started, and **walk a built tree to its end**;
what they report are nodes of the tree. -/
theorem exists_walkAll_of_ofDocument (h : Node.ofDocument document = .ok root)
    (hspecs : ∀ spec ∈ specs,
      spec ∈ Registry.builtin ∧ settings.levelFor spec.id spec.name ≠ .off) :
    ∃ runs runs', specs.mapM (RuleSpec.start settings) = .ok runs ∧
      RuleRun.walkAll runs (.node root) = ⟨runs', none⟩ ∧
      ∀ d ∈ runs'.flatMap RuleRun.reported, root.LeadsTo d.node := by
  obtain ⟨runs, hruns, hfresh⟩ := exists_start fun spec hspec => (hspecs spec hspec).2
  have haccepting : ∀ run ∈ runs, run.rule.Accepting := by
    intro run hrun
    obtain ⟨-, spec, hspec, hrule⟩ := hfresh run hrun
    rw [hrule]
    exact accepting_of_mem_builtin (hspecs spec hspec).1 settings
  have hsound : root.Throughout Node.Sound :=
    throughout_of_ofDocument (fun _ _ _ _ _ _ hm => sound_of_makeNode hm) h
  obtain ⟨runs', hwalk, hreported⟩ :=
    exists_walkAll hsound haccepting fun run hrun => (hfresh run hrun).1
  exact ⟨runs, runs', hruns, hwalk, hreported⟩

/-- The check of a tree that the rules walk to its end comes down to **ordering** what they
report. -/
theorem checkTree_of_walkAll {root : Root} {runs runs' : List RuleRun}
    (hruns : specs.mapM (RuleSpec.start settings) = .ok runs)
    (hwalk : RuleRun.walkAll runs root = ⟨runs', none⟩) :
    checkTree settings specs root =
      (sortDiagnostics (runs'.flatMap RuleRun.reported)).mapError .unordered := by
  rw [checkTree, hruns]
  simp only [bind, Except.bind, hwalk]

/-- The tree of a document with **whole places** can be checked. -/
theorem exists_checkTree (h : Node.ofDocument document = .ok root)
    (hspecs : ∀ spec ∈ specs,
      spec ∈ Registry.builtin ∧ settings.levelFor spec.id spec.name ≠ .off)
    (hwhole : ∀ top d, document.node? = some top → top.Reaches d → d.hasWholePlace) :
    ∃ diagnostics, checkTree settings specs (.node root) = .ok diagnostics := by
  obtain ⟨runs, runs', hruns, hwalk, hreported⟩ := exists_walkAll_of_ofDocument h hspecs
  have hplaces : root.Throughout fun n => n.hasWholePlace :=
    throughout_of_ofDocument (fun top d _ _ htop hd hm =>
      (hasWholePlace_of_makeNode hm).trans (hwhole top d htop hd)) h
  obtain ⟨diagnostics, hsorted⟩ := exists_sortDiagnostics fun d hd => hplaces _ (hreported d hd)
  exact ⟨diagnostics, by rw [checkTree_of_walkAll hruns hwalk, hsorted]; rfl⟩

/-- **A built tree is never refused.** The rules that come with the library, as far as they are
switched on, can be started and walk the tree of any document to its end without a fault. If
moreover every line and column in the document is a whole number or missing, the tree gets a report
without an error. -/
theorem lintTree_of_ofDocument (h : Node.ofDocument document = .ok root)
    (hspecs : ∀ spec ∈ specs,
      spec ∈ Registry.builtin ∧ settings.levelFor spec.id spec.name ≠ .off) :
    (∃ runs, specs.mapM (RuleSpec.start settings) = .ok runs ∧
      (RuleRun.walkAll runs (.node root)).fault = none) ∧
    ((∀ top d, document.node? = some top → top.Reaches d → d.hasWholePlace) →
      ∀ path, ∃ diagnostics, (Linter.lintTree ⟨settings, specs⟩ path (.node root)).2 =
        .ok { path, diagnostics, error := none }) := by
  constructor
  · obtain ⟨runs, runs', hruns, hwalk, -⟩ := exists_walkAll_of_ofDocument h hspecs
    exact ⟨runs, hruns, by rw [hwalk]⟩
  · intro hwhole path
    obtain ⟨diagnostics, hcheck⟩ := exists_checkTree h hspecs hwhole
    exact ⟨diagnostics, by simp only [Linter.lintTree, hcheck]⟩

end BuiltTree

/-- The call `clear().type()`, where `clear` is no method. -/
def typeCall : Document :=
  .obj 0 [("type", .str "CallExpression"),
    ("loc", .obj 1 [("start", .obj 2 [("line", .int 3), ("column", .null)])]),
    ("callee", .obj 3 [("type", .str "MemberExpression"),
      ("object", .obj 4 [("type", .str "CallExpression"),
        ("callee", .obj 5 [("type", .str "Identifier"), ("name", .str "clear")])]),
      ("property", .obj 6 [("type", .str "Identifier"), ("name", .str "type")])])]

/-- With all rules the call gets its report. -/
theorem lintTree_typeCall : ∃ root, Node.ofDocument typeCall = .ok root ∧
    (∀ spec ∈ Registry.builtin, spec ∈ Registry.builtin ∧
      Settings.levelFor {} spec.id spec.name ≠ .off) ∧
    (∀ top d, typeCall.node? = some top → top.Reaches d → d.hasWholePlace) ∧
    ∃ diagnostics, (Linter.lintTree ⟨{}, Registry.builtin⟩ "tree.json" (.node root)).2 =
      .ok { path := "tree.json", diagnostics, error := none } := by
  have hspecs : ∀ spec ∈ Registry.builtin, spec ∈ Registry.builtin ∧
      Settings.levelFor {} spec.id spec.name ≠ .off := fun spec hspec => ⟨hspec, nofun⟩
  have hwhole : ∀ top d, typeCall.node? = some top → top.Reaches d → d.hasWholePlace := by
    have hall : ∀ top ∈ typeCall.node?, ∀ d ∈ top.postOrder, d.hasWholePlace := by decide +kernel
    exact fun top d htop hd => hall top htop d (NodeDocument.mem_postOrder.mpr hd)
  have hisOk : (Node.ofDocument typeCall).isOk := by decide +kernel
  cases hroot : Node.ofDocument typeCall with
  | error fault =>
      rw [hroot] at hisOk
      exact absurd hisOk Bool.false_ne_true
  | ok root =>
      exact ⟨root, rfl, hspecs, hwhole, (lintTree_of_ofDocument hroot hspecs).2 hwhole "tree.json"⟩

end TreeLint
