import TreeLint.Proofs.Rule.Refusal

/-!
# The Rule on Clearing Before Typing

The rule looks two calls deep: at a call `.type(...)` and at the call that its receiver is. In a
chain of calls each call is looked at twice, once by itself and once as what the next one is called
on, and the nodes that are looked at need not be children of one another. Still what the rule does
at a node depends on this node alone: it **stops** there (`stopsAt`), or it reports the node if it
is a hasty call (`isHasty`), or it passes over it.

## Main results

* `isSome_refused?`: where the rule stops.
* `check_of_not_stopsAt`: what the rule finds elsewhere.
* `reported_walkAll`: what the rule does on a tree.
-/

namespace TreeLint.ClearBeforeType

/-! ### Calls -/

/-- What a call is called on: the object of its callee. -/
def receiver? (n : Node) : Option Node := n.callee.bind Node.receiver

/-- Whether a call is **broken**: it has no callee, or the callee is a plain member expression
without its property or without its object. -/
def isBroken (n : Node) : Bool :=
  n.kind == .callExpression && match n.callee with
    | none => true
    | some callee => isPlainMember callee && (callee.member.isNone || callee.receiver.isNone)

/-- Whether the rule **stops** at a node: at a broken call, and at a call `.type(...)` of what a
broken call gives. -/
def stopsAt (n : Node) : Bool :=
  isBroken n || isMethodCall "type" n && (receiver? n).any isBroken

/-- Whether a call is **hasty**: it is a call `.type(...)`, and not of what a call `.clear(...)`
gives. -/
def isHasty (n : Node) : Bool :=
  isMethodCall "type" n && !(receiver? n).any (isMethodCall "clear")

/-- The diagnostic for a hasty call. -/
def diagnostic (severity : Severity) (n : Node) : Diagnostic where
  node := n
  violation := .missingClearBeforeType
  message := message
  ruleId := rule.id
  ruleName := rule.name
  severity := severity

variable {n : Node}

/-- A call of a method is **a call**. -/
theorem isCall_of_isMethodCall {name : String} (h : isMethodCall name n) :
    n.kind = .callExpression := by
  rw [isMethodCall, Bool.and_eq_true] at h
  exact beq_iff_eq.mp h.1

/-- A call lacks something exactly if it is **broken**. -/
theorem isSome_lacking? (n : Node) : (lacking? n).isSome = isBroken n := by
  rw [lacking?, isBroken]
  by_cases hkind : n.kind = .callExpression
  · rw [if_pos hkind, hkind, beq_self_eq_true, Bool.true_and]
    cases n.callee with
    | none => rfl
    | some callee =>
        dsimp only
        cases isPlainMember callee && (callee.member.isNone || callee.receiver.isNone) <;> rfl
  · simp [hkind]

/-- The rule refuses exactly the nodes **at which it stops**. -/
theorem isSome_refused? (n : Node) : (refused? n).isSome = stopsAt n := by
  have hbind : ∀ r : Option Node, (r.bind lacking?).isSome = r.any isBroken := by
    intro r
    cases r with
    | none => rfl
    | some receiver => exact isSome_lacking? receiver
  rw [refused?, stopsAt, Option.isSome_or, isSome_lacking?, receiver?]
  cases isMethodCall "type" n with
  | false => rfl
  | true => rw [if_pos rfl, hbind, Bool.true_and]

/-! ### What is found at a call -/

/-- A check that comes to an end has found **the hasty calls**. -/
theorem eq_of_check {found : List Finding} (hfound : check n = .ok found) :
    found = if isHasty n then [⟨n, .missingClearBeforeType, message⟩] else [] := by
  rw [check] at hfound
  obtain ⟨told, htold, hfound⟩ := bind_eq_ok.mp hfound
  have htype := eq_some_iff_isMethodCall htold "type"
  by_cases hcall : told = some "type"
  · rw [if_pos hcall] at hfound
    obtain ⟨callee, hrequire, hfound⟩ := bind_eq_ok.mp hfound
    have hcallee : n.callee = some callee := by
      cases hcase : n.callee <;> simp_all [Node.requireCallee]
    -- whatever is before the dot is asked for its method
    obtain ⟨before, hbefore, hfound⟩ : ∃ before : Option String,
        (before = some "clear" ↔ (receiver? n).any (isMethodCall "clear")) ∧
          (if before = some "clear" then pure []
            else pure [⟨n, .missingClearBeforeType, message⟩] : Except Malformed (List Finding)) =
              .ok found := by
      cases hreceiver : callee.receiver with
      | none =>
          rw [hreceiver] at hfound
          exact ⟨none, by simp [receiver?, hcallee, hreceiver], hfound⟩
      | some receiver =>
          rw [hreceiver] at hfound
          obtain ⟨before, hbefore, hfound⟩ := bind_eq_ok.mp hfound
          refine ⟨before, ?_, hfound⟩
          rw [eq_some_iff_isMethodCall hbefore]
          simp [receiver?, hcallee, hreceiver]
    rw [isHasty, htype.mp hcall, Bool.true_and]
    by_cases hclear : before = some "clear"
    · rw [if_pos hclear] at hfound
      rw [hbefore.mp hclear]
      exact (Except.ok.inj hfound).symm
    · have hnot : (receiver? n).any (isMethodCall "clear") = false := by
        rw [← Bool.not_eq_true]
        exact mt hbefore.mpr hclear
      rw [if_neg hclear] at hfound
      rw [hnot]
      exact (Except.ok.inj hfound).symm
  · have hnot : isMethodCall "type" n = false := by
      rw [← Bool.not_eq_true]
      exact mt htype.mpr hcall
    rw [if_neg hcall] at hfound
    rw [isHasty, hnot]
    exact (Except.ok.inj hfound).symm

/-- Where the rule does not stop, it reports a call exactly if it is **hasty**. -/
theorem check_of_not_stopsAt (hkind : n.kind = .callExpression) (h : stopsAt n = false) :
    check n = .ok (if isHasty n then [⟨n, .missingClearBeforeType, message⟩] else []) := by
  have hfault : fault? (check n) = none := by
    rw [fault?_check hkind, ← Option.not_isSome_iff_eq_none, isSome_refused?, h]
    exact Bool.false_ne_true
  obtain ⟨found, hfound⟩ := fault?_eq_none_iff.mp hfault
  rw [hfound, ← eq_of_check hfound]

/-! ### What is reported on a tree -/

/-- The rule takes a node exactly if it does **not stop** at it. -/
theorem takes_iff : rule.Takes n ↔ stopsAt n = false := by
  rw [← Rule.refusal?_eq_none_iff, refusal?_rule, ← Option.not_isSome_iff_eq_none, isSome_refused?,
    Bool.not_eq_true]

/-- After nodes at which it does not stop, the rule has reported the hasty calls **among them**. -/
theorem reported_after (severity : Severity) {nodes : List Node}
    (h : ∀ n ∈ nodes, stopsAt n = false) :
    (RuleRun.after { rule, severity } nodes).reported =
      (nodes.filter isHasty).map (diagnostic severity) := by
  induction nodes with
  | nil => rfl
  | cons n nodes ih =>
      obtain ⟨hn, hnodes⟩ := List.forall_mem_cons.mp h
      rw [List.filter_cons]
      by_cases hkind : n.kind = .callExpression
      · have hheeded : n.kind ∈ rule.listens := List.mem_singleton.mpr hkind
        have hcons : (RuleRun.after { rule, severity } (n :: nodes)).reported =
            (rule.findings n).map (RuleRun.stamp { rule, severity }) ++
              (RuleRun.after { rule, severity } nodes).reported := by
          simp [RuleRun.after, Rule.heeded, hheeded]
        have hfindings : rule.findings n = _ :=
          Rule.findings_of_check (check_of_not_stopsAt hkind hn)
        rw [hcons, hfindings, ih hnodes]
        cases isHasty n <;> rfl
      · have hheeded : n.kind ∉ rule.listens := mt List.mem_singleton.mp hkind
        have hcons : (RuleRun.after { rule, severity } (n :: nodes)).reported =
            (RuleRun.after { rule, severity } nodes).reported := by
          simp [RuleRun.after, Rule.heeded, hheeded]
        have hnot : isHasty n = false := by
          rw [isHasty, Bool.and_eq_false_iff, ← Bool.not_eq_true]
          exact .inl (mt isCall_of_isMethodCall hkind)
        rw [hcons, ih hnodes, hnot]
        rfl

/-- **The reports of the rule on clearing before typing.** On a tree the walk of the rule alone is
stopped if and only if some call of the tree is broken, or is a call `.type(...)` of what a broken
call gives. Otherwise the rule reports exactly the hasty calls, at each visit, in the order of the
walk. -/
theorem reported_walkAll {root : Node} (h : root.IsTree) (severity : Severity) :
    ((∃ fault, (RuleRun.walkAll [{ rule, severity }] (.node root)).fault = some fault) ↔
      ∃ n ∈ root.preorder, isBroken n ∨
        isMethodCall "type" n ∧ ∃ receiver, receiver? n = some receiver ∧ isBroken receiver) ∧
    ((RuleRun.walkAll [{ rule, severity }] (.node root)).fault = none →
      (RuleRun.walkAll [{ rule, severity }] (.node root)).state.flatMap RuleRun.reported =
        (root.preorder.filter fun n => isMethodCall "type" n &&
          !(receiver? n).any (isMethodCall "clear")).map (diagnostic severity)) := by
  have hkinds : ∀ run ∈ [({ rule, severity } : RuleRun)], run.rule.listens.Nodup := by
    intro run hrun
    rw [List.mem_singleton.mp hrun]
    exact List.pairwise_singleton _ _
  have hpass : ∀ n ∈ root.preorder,
      (RuleRun.Pass [({ rule, severity } : RuleRun)] n ↔ stopsAt n = false) := by
    intro n hn
    rw [RuleRun.Pass, and_iff_right (h n hn), List.forall_mem_singleton]
    exact takes_iff
  have hfault : (RuleRun.walkAll [{ rule, severity }] (.node root)).fault = none ↔
      ∀ n ∈ root.preorder, stopsAt n = false := by
    rw [RuleRun.fault_walkAll_eq_none_iff hkinds]
    exact forall₂_congr hpass
  constructor
  · rw [← Option.ne_none_iff_exists', ne_eq, hfault]
    simp only [not_forall, exists_prop, Bool.not_eq_false, stopsAt, Bool.or_eq_true,
      Bool.and_eq_true, Option.any_eq_true]
  · intro hnone
    have hstops := hfault.mp hnone
    have hwalk := RuleRun.walkAll_of_pass hkinds fun n hn => (hpass n hn).mpr (hstops n hn)
    have hfinish : ((RuleRun.after { rule, severity } root.preorder).finish).reported =
        (RuleRun.after { rule, severity } root.preorder).reported := List.append_nil _
    rw [hwalk, List.map_singleton, List.flatMap_singleton, hfinish]
    exact reported_after severity hstops

/-- A call of a method, with what it is called on as its child. -/
def methodCall (receiver : Node) (method : String) : Node where
  kind := .callExpression
  callee := some
    { kind := .memberExpression, receiver := some receiver,
      member := some { kind := .identifier, name := some method } }
  children := .sequence [.node receiver]

/-- A walk of a method call goes on with **its receiver**. -/
theorem preorder_methodCall (receiver : Node) (method : String) :
    (methodCall receiver method).preorder = methodCall receiver method :: receiver.preorder := by
  rw [Node.preorder_eq]
  exact congrArg _ (List.append_nil _)

/-- A field that is cleared once and typed into twice. -/
def typedTwice : Node :=
  methodCall (methodCall (methodCall { kind := .identifier } "clear") "type") "type"

/-- A call of what a call without a callee gives, the latter not among the children. -/
def typedNowhere : Node :=
  { methodCall { kind := .callExpression } "type" with children := .sequence [] }

/-- The second call `.type(...)` of the chain is reported and the first one is not. -/
theorem reported_typedTwice :
    typedTwice.IsTree ∧ typedNowhere.IsTree ∧
    (RuleRun.walkAll [⟨rule, .error, [], []⟩] (.node typedTwice)).fault = none ∧
    (RuleRun.walkAll [⟨rule, .error, [], []⟩] (.node typedTwice)).state.flatMap RuleRun.reported =
      [diagnostic .error typedTwice] ∧
    ∃ fault,
      (RuleRun.walkAll [⟨rule, .error, [], []⟩] (.node typedNowhere)).fault = some fault := by
  have hleaf : ({ kind := .identifier } : Node).preorder = [{ kind := .identifier }] := by cbv
  have hnowhere : typedNowhere.preorder = [typedNowhere] := by cbv
  have htwice : typedTwice.preorder = [typedTwice,
      methodCall (methodCall { kind := .identifier } "clear") "type",
      methodCall { kind := .identifier } "clear", { kind := .identifier }] := by
    simp only [typedTwice, preorder_methodCall, hleaf]
  have htree : typedTwice.IsTree := by
    rw [Node.IsTree, htwice]
    simp only [List.forall_mem_cons, Node.hasChildNodes_iff]
    exact ⟨rfl, rfl, rfl, rfl, by simp⟩
  have htree' : typedNowhere.IsTree := by
    rw [Node.IsTree, hnowhere, List.forall_mem_singleton]
    exact Node.hasChildNodes_iff.mpr rfl
  obtain ⟨hfault, hreported⟩ := reported_walkAll htree .error
  obtain ⟨hfault', -⟩ := reported_walkAll htree' .error
  have hnone : (RuleRun.walkAll [⟨rule, .error, [], []⟩] (.node typedTwice)).fault = none := by
    rw [Option.eq_none_iff_forall_ne_some]
    intro fault h
    obtain ⟨n, hn, hbroken⟩ := hfault.mp ⟨fault, h⟩
    rw [htwice] at hn
    simp only [List.mem_cons, List.not_mem_nil, or_false] at hn
    rcases hn with rfl | rfl | rfl | rfl
    all_goals
      simp [typedTwice, methodCall, isBroken, isPlainMember, isMethodCall, receiver?] at hbroken
  refine ⟨htree, htree', hnone, ?_, hfault'.mpr ⟨typedNowhere, ?_, .inr ⟨rfl, _, rfl, rfl⟩⟩⟩
  · rw [hreported hnone, htwice]
    rfl
  · rw [hnowhere]
    exact List.mem_cons_self

end TreeLint.ClearBeforeType
