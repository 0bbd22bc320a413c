import Mathlib.Data.Int.ConditionallyCompleteOrder
import Mathlib.Order.ConditionallyCompleteLattice.Basic
import TreeLint.Proofs.Check.FirstFault
import TreeLint.Proofs.Registry.Enabled

/-!
# The Order of Diagnostics

Every rule keeps a list of its own diagnostics, some made during the walk and some at its end. The
check of a tree puts these lists one after another, by the ids of the rules, and sorts the whole by
**place** (`Diagnostic.sourcePlace`): by line and column, and a diagnostic without a line comes
last.

The sort itself knows no last place. It takes a very late line for a missing one, which comes to
the same if every line is earlier than that (`Node.hasOrdinaryPlace`).

## Main results

* `wholePlace_eq`, `sourcePlace_le_of_wholePlace_le`: what the sort goes by, and that it goes by
  places.
* `checkTree_ordered`: the diagnostics of a tree are those of the rules, in a stable order by place.
-/

namespace TreeLint

open Sorting

/-! ### Places -/

/-- The **place** of a diagnostic: its line and column, where a missing column counts as zero, or a
last place if there is no line. -/
def Diagnostic.sourcePlace (d : Diagnostic) : WithTop (ℤ ×ₗ ℤ) :=
  match d.line, d.column with
  | .int line, .int column => .some (toLex (line, column))
  | .int line, _ => .some (toLex (line, 0))
  | _, _ => ⊤

/-- Whether a node is at an **ordinary** place: its line and column are whole numbers or missing,
and the line is below a thousand million. -/
def Node.hasOrdinaryPlace (n : Node) : Bool :=
  n.hasWholePlace && match n.span.line with
    | .int line => line < 10 ^ 9
    | _ => true

/-- An ordinary place is **whole**. -/
theorem Node.hasWholePlace_of_hasOrdinaryPlace {n : Node} (h : n.hasOrdinaryPlace) :
    n.hasWholePlace := ((Bool.and_eq_true _ _).mp h).1

variable {d : Diagnostic}

/-- The sort goes by the place, with a **very late line** for the last place. -/
theorem Diagnostic.wholePlace_eq (h : d.node.hasWholePlace) :
    d.wholePlace = d.sourcePlace.untopD (toLex (unknownLine, 0)) := by
  rw [Node.hasWholePlace, Bool.and_eq_true, Value.isWhole_iff, Value.isWhole_iff] at h
  obtain ⟨hline, hcolumn⟩ := h
  rw [wholePlace, position, sourcePlace, line, column]
  rcases hline with hline | ⟨line, hline⟩
  · simp [hline, Value.isNull]
  · rcases hcolumn with hcolumn | ⟨column, hcolumn⟩
    · simp [hline, hcolumn, Value.isNull, Value.isBlank]
    · by_cases hzero : column = 0
      · simp [hline, hcolumn, Value.isNull, Value.isBlank, hzero]
      · simp [hline, hcolumn, Value.isNull, Value.isBlank, hzero]

/-- At ordinary places no line is as late as that. -/
theorem Diagnostic.lt_of_sourcePlace_eq (h : d.node.hasOrdinaryPlace) {p : ℤ ×ₗ ℤ}
    (hp : d.sourcePlace = p) : p < toLex (unknownLine, 0) := by
  obtain ⟨line, column, hline, rfl⟩ :
      ∃ line column : ℤ, d.node.span.line = .int line ∧ toLex (line, column) = p := by
    rw [sourcePlace] at hp
    split at hp
    · next line column hline hcolumn => exact ⟨line, column, hline, WithTop.coe_inj.mp hp⟩
    · next line hline hcolumn => exact ⟨line, 0, hline, WithTop.coe_inj.mp hp⟩
    · exact absurd hp WithTop.top_ne_coe
  have hlt : line < unknownLine := by
    rw [Node.hasOrdinaryPlace, hline, Bool.and_eq_true] at h
    exact of_decide_eq_true h.2
  exact Prod.Lex.toLex_lt_toLex.mpr (.inl hlt)

/-- Among ordinary places, the order by whole places is that **in the source**. -/
theorem Diagnostic.sourcePlace_le_of_wholePlace_le {a b : Diagnostic} (ha : a.node.hasOrdinaryPlace)
    (hb : b.node.hasOrdinaryPlace) (h : a.wholePlace ≤ b.wholePlace) :
    a.sourcePlace ≤ b.sourcePlace := by
  rw [wholePlace_eq (Node.hasWholePlace_of_hasOrdinaryPlace ha),
    wholePlace_eq (Node.hasWholePlace_of_hasOrdinaryPlace hb)] at h
  cases hplace : b.sourcePlace with
  | top => exact le_top
  | coe q =>
      cases hplace' : a.sourcePlace with
      | top =>
          have hlt := lt_of_sourcePlace_eq hb hplace
          rw [hplace, hplace'] at h
          exact absurd hlt (not_lt.mpr h)
      | coe p =>
          rw [hplace, hplace'] at h
          exact WithTop.coe_le_coe.mpr h

/-- Sorting diagnostics at ordinary places puts them in a **stable** order by place. -/
theorem Diagnostic.ordered_stableSort {own : List Diagnostic}
    (h : ∀ d ∈ own, d.node.hasOrdinaryPlace) :
    (stableSort wholePlace own).Perm own ∧
      ((stableSort wholePlace own).Pairwise fun a b => a.sourcePlace ≤ b.sourcePlace) ∧
      ∀ p, (stableSort wholePlace own).filter (·.sourcePlace = p) =
        own.filter (·.sourcePlace = p) := by
  refine ⟨List.perm_insertionSort _ own, ?_, fun p => ?_⟩
  · refine (pairwise_stableSort own).imp_of_mem fun {a b} ha hb hle => ?_
    have ha := h a (mem_stableSort.mp ha)
    have hb := h b (mem_stableSort.mp hb)
    exact sourcePlace_le_of_wholePlace_le ha hb hle
  · rw [filter_stableSort]
    refine stableSort_of_pairwise (List.pairwise_of_forall_mem_list fun a ha b hb => ?_)
    obtain ⟨ha, hap⟩ := List.mem_filter.mp ha
    obtain ⟨hb, hbp⟩ := List.mem_filter.mp hb
    have hplace : a.sourcePlace = b.sourcePlace :=
      (of_decide_eq_true hap).trans (of_decide_eq_true hbp).symm
    rw [wholePlace_eq (Node.hasWholePlace_of_hasOrdinaryPlace (h a ha)),
      wholePlace_eq (Node.hasWholePlace_of_hasOrdinaryPlace (h b hb)), hplace]

/-! ### The diagnostics of a tree -/

/-- **The order of diagnostics.** Let rules be enabled from any registry, and let the check of a
tree with them give diagnostics. Let the places of the tree be ordinary, and the places of what is
reported by rules that do not come with the library. The diagnostics of the tree are those which the
rules have after the walk, one rule after another by their ids, but put in order: earlier places
first, those without a line last, and diagnostics at one place, or without a line, as they were. -/
theorem checkTree_ordered {history specs : List RuleSpec} {settings : Settings}
    {only : List String} (henabled : (Registry.after history).enabled settings only = .ok specs)
    {root : Node} {ds : List Diagnostic}
    (hcheck : checkTree settings specs (.node root) = .ok ds)
    (hplaces : ∀ n ∈ root.preorder, n.hasOrdinaryPlace)
    (hspecs : ∀ spec ∈ specs, spec ∈ Registry.builtin ∨ (spec.build settings).listens.Nodup ∧
      ∀ d ∈ spec.reports settings root, d.node.hasOrdinaryPlace) :
    ∃ runs, specs.mapM (RuleSpec.start settings) = .ok runs ∧
      (specs.Pairwise fun a b => a.id < b.id) ∧
      (RuleRun.walkAll runs (.node root)).state.map RuleRun.reported =
        specs.map (RuleSpec.reports settings root) ∧
      ds.Perm (specs.flatMap (RuleSpec.reports settings root)) ∧
      (ds.Pairwise fun a b => a.sourcePlace ≤ b.sourcePlace) ∧
      ∀ p, ds.filter (·.sourcePlace = p) =
        (specs.flatMap (RuleSpec.reports settings root)).filter (·.sourcePlace = p) := by
  have hids := Registry.pairwise_enabled (Registry.reflects_after history).nodup_ids henabled
  obtain ⟨runs, hruns, hcheck⟩ := bind_eq_ok.mp hcheck
  have hkinds : ∀ run ∈ runs, run.rule.listens.Nodup := by
    intro run hrun
    obtain ⟨spec, hspec, hrule⟩ := RuleSpec.exists_rule_of_mapM_start hruns hrun
    rw [hrule]
    rcases hspecs spec hspec with hbuiltin | ⟨hnodup, -⟩
    · exact (anchored_of_mem_builtin hbuiltin settings).2.1
    · exact hnodup
  have hordinary : ∀ d ∈ specs.flatMap (RuleSpec.reports settings root),
      d.node.hasOrdinaryPlace := by
    intro d hd
    obtain ⟨spec, hspec, hd⟩ := List.mem_flatMap.mp hd
    rcases hspecs spec hspec with hbuiltin | ⟨-, hreports⟩
    · exact hplaces d.node (RuleSpec.node_mem_of_mem_reports hbuiltin hd).1
    · exact hreports d hd
  -- a walk with a fault gives no diagnostics, so this one came to its end
  cases hfault : (RuleRun.walkAll runs (.node root)).fault with
  | some fault =>
      simp only [hfault] at hcheck
      cases hcheck
  | none =>
      have hwalk := RuleRun.walkAll_of_pass hkinds
        ((RuleRun.fault_walkAll_eq_none_iff hkinds).mp hfault)
      have hown := RuleSpec.map_reported_of_mapM_start root hruns
      have hsorted : ds = stableSort Diagnostic.wholePlace
          (specs.flatMap (RuleSpec.reports settings root)) := by
        have hsort := sortDiagnostics_eq_stableSort fun d hd =>
          Node.hasWholePlace_of_hasOrdinaryPlace (hordinary d hd)
        simp only [hwalk, (RuleSpec.of_mapM_start root hruns).2, hsort] at hcheck
        exact (Except.ok.inj hcheck).symm
      refine ⟨runs, hruns, hids, ?_, ?_⟩
      · rw [hwalk, List.map_map]
        exact hown
      · rw [hsorted]
        exact Diagnostic.ordered_stableSort hordinary

/-- A test in which two calls and a page class are at lines, the class and one of the calls at one
place, and two calls are at no line. -/
def scatteredTest : Node where
  kind := .program
  children := .sequence
    [.node { kind := .classDeclaration, name := some "LoginPage",
             span := { line := .int 2, column := .int 4 } },
     .node (typing { line := .null, column := .int 1 }),
     .node (typing { line := .int 2, column := .int 4 }),
     .node (typing { line := .int 1, column := .null }),
     .node { kind := .callExpression,
             callee := some { kind := .identifier, name := some "before" },
             arguments := [{ kind := .arrowFunctionExpression }] }]
where
  typing (span : Span) : Node :=
    { kind := .callExpression, span,
      callee := some
        { kind := .memberExpression,
          receiver := some { kind := .identifier, name := some "field" },
          member := some { kind := .identifier, name := some "type" } } }

/-- All rules together give the diagnostics of the test by place, and by id at one place. -/
theorem checkTree_scatteredTest : ∃ specs ds,
    (Registry.after Registry.builtin).enabled {} [] = .ok specs ∧
    checkTree {} specs (.node scatteredTest) = .ok ds ∧
    (∀ n ∈ scatteredTest.preorder, n.hasOrdinaryPlace) ∧
    (∀ spec ∈ specs, spec ∈ Registry.builtin) ∧
    ds.map Diagnostic.ruleId = ["CY002", "CY002", "PAGE001", "CY001", "CY002"] ∧
    ds.Perm (specs.flatMap (RuleSpec.reports {} scatteredTest)) ∧
    (ds.Pairwise fun a b => a.sourcePlace ≤ b.sourcePlace) ∧
    ds.filter (·.sourcePlace = ⊤) =
      (specs.flatMap (RuleSpec.reports {} scatteredTest)).filter (·.sourcePlace = ⊤) := by
  have hall : scatteredTest.preorder.all Node.hasOrdinaryPlace = true := by cbv
  have hplaces := List.all_eq_true.mp hall
  have henabled : (Registry.after Registry.builtin).enabled {} [] = .ok Registry.builtin.sorted :=
    Registry.enabled_default Registry.builtin
  have hmap : (checkTree {} Registry.builtin.sorted (.node scatteredTest)).map
      (List.map Diagnostic.ruleId) = .ok ["CY002", "CY002", "PAGE001", "CY001", "CY002"] := by
    rw [Registry.sorted_builtin]
    decide +kernel
  obtain ⟨ds, hcheck, hids⟩ := map_eq_ok.mp hmap
  have hbuiltin : ∀ spec ∈ Registry.builtin.sorted, spec ∈ Registry.builtin := fun _ hspec =>
    List.mem_mergeSort.mp hspec
  obtain ⟨-, -, -, -, hperm, hordered, hstable⟩ := checkTree_ordered henabled hcheck hplaces
    fun spec hspec => .inl (hbuiltin spec hspec)
  exact ⟨_, ds, henabled, hcheck, hplaces, hbuiltin, hids, hperm, hordered, hstable ⊤⟩

end TreeLint
