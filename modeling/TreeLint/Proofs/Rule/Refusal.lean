import TreeLint.Proofs.Fallible
import TreeLint.Proofs.Rule.SharedWalk
import TreeLint.Rule.ClearBeforeType
import TreeLint.Rule.HookPairing
import TreeLint.Rule.PageSingleton

/-!
# What Stops a Walk

A walk with several rules is stopped by the first node, in pre-order, that one of the rules refuses
or whose children are no sequence of nodes (`fault_walkAll`). At one node the rules come first, in
their order, and the children after them; the fault of the walk is the first of these faults.

What a rule **refuses** (`Rule.refusal?`) is said here for each rule without running its check, in
terms of what the node and the nodes around it lack. A rule looks no further than it needs to: the
call before a `.type` call is looked at only if there is such a call, and the fields of a class only
up to the first one that is the singleton.

## Main results

* `RuleRun.fault_walkAll`: the fault of a walk.
* `HookPairing.refusal?_rule`, `ClearBeforeType.refusal?_rule`, `PageSingleton.refusal?_rule`: what
  the rules refuse.
-/

namespace TreeLint

/-! ### Refusals -/

namespace Rule

/-- Why a rule **refuses** a node. It takes every node of a kind that it does not look at. -/
def refusal? (rule : Rule) (n : Node) : Option Malformed :=
  if n.kind ∈ rule.listens then fault? (rule.check n) else none

/-- A rule that does not refuse a node **takes it**. -/
theorem refusal?_eq_none_iff {rule : Rule} {n : Node} : rule.refusal? n = none ↔ rule.Takes n := by
  rw [refusal?, Takes]
  split
  · next hkind => rw [fault?_eq_none_iff, forall_prop_of_true hkind]
  · next hkind => exact ⟨fun _ h => absurd h hkind, fun _ => rfl⟩

/-- Why a walk with these rules **stops** at a node: the refusal of the first rule that refuses it,
or else what is wrong with its children. -/
def stop? (rules : List Rule) (n : Node) : Option Malformed :=
  (rules.findSome? (·.refusal? n)).or n.childFault?

end Rule

namespace RuleRun

/-- Rules let a node pass exactly if **nothing stops** it. -/
theorem pass_iff_stop? {runs : List RuleRun} {n : Node} :
    Pass runs n ↔ Rule.stop? (runs.map rule) n = none := by
  rw [Pass, Rule.stop?, Option.or_eq_none_iff, List.findSome?_eq_none_iff, List.forall_mem_map,
    ← Node.hasChildNodes_iff, and_comm]
  simp only [Rule.refusal?_eq_none_iff]

/-- Looking at a node fails exactly as the rule **refuses it**. -/
theorem fault?_look (run : RuleRun) (n : Node) : fault? (run.look n) = run.rule.refusal? n := by
  rw [look, Rule.refusal?]
  split
  · rw [enter]
    cases run.rule.check n <;> rfl
  · rfl

/-- Rules that are shown a node one after another stop with **the first refusal**. -/
theorem fault_lookAll (n : Node) (runs : List RuleRun) :
    (lookAll n runs).fault = (runs.map rule).findSome? (·.refusal? n) := by
  induction runs with
  | nil => rfl
  | cons run runs ih =>
      rw [lookAll, List.map_cons, List.findSome?_cons, ← fault?_look]
      cases run.look n with
      | error fault => rfl
      | ok run' => exact ih

/-- Entering a node fails with the fault that **stops it**. -/
theorem fault_perform_enter {team runs : List RuleRun} (hteam : runs.map rule = team.map rule)
    (hkinds : ∀ run ∈ runs, run.rule.listens.Nodup) (n : Node) :
    ((listeners team).perform (.enter n) runs).fault = Rule.stop? (team.map rule) n := by
  rw [perform_enter hteam hkinds, Rule.stop?, ← hteam, ← fault_lookAll, ← n.fault?_requireChildren]
  rcases lookAll n runs with ⟨state, _ | fault⟩
  · cases n.requireChildren <;> rfl
  · rfl

/-- **The fault of a walk** is that of the first node, in pre-order, at which the walk stops. -/
theorem fault_walkAll {runs : List RuleRun} (hkinds : ∀ run ∈ runs, run.rule.listens.Nodup)
    (n : Node) :
    (walkAll runs (.node n)).fault = n.preorder.findSome? (Rule.stop? (runs.map rule)) := by
  by_cases hpass : ∀ m ∈ n.preorder, Pass runs m
  · rw [walkAll_of_pass hkinds hpass, eq_comm, List.findSome?_eq_none_iff]
    exact fun m hm => pass_iff_stop?.mp (hpass m hm)
  · obtain ⟨done, m, rest, hsplit, hdone, hm⟩ := exists_first_not_pass hpass
    obtain ⟨⟨fault, hfault⟩, hperform⟩ := performAll_of_not_pass rfl hkinds hdone hm rest
    have hteam : (runs.map (·.after done)).map rule = runs.map rule := by
      rw [List.map_map]
      rfl
    have hstop : Rule.stop? (runs.map rule) m = some fault := by
      rw [← hfault, fault_perform_enter hteam (List.forall_mem_map.mpr hkinds)]
    have hnone : done.findSome? (Rule.stop? (runs.map rule)) = none :=
      List.findSome?_eq_none_iff.mpr fun k hk => pass_iff_stop?.mp (hdone k hk)
    rw [walkAll_node, hsplit, hperform, List.findSome?_append, hnone, List.findSome?_cons, hstop]
    generalize (listeners runs).perform (.enter m) (runs.map (·.after done)) = outcome at hfault
    obtain ⟨state, fault'⟩ := outcome
    subst hfault
    rfl

end RuleRun

/-! ### Hooks -/

namespace HookPairing

/-- What the rule on hooks refuses: a call **without a callee**. -/
def refused? (n : Node) : Option Malformed :=
  if n.kind = .callExpression ∧ n.callee = none then some (.noCallee .callExpression) else none

/-- The rule on hooks refuses **what it says**. -/
theorem refusal?_rule (pairs : List HookPair) (n : Node) :
    (rule pairs).refusal? n = refused? n := by
  have hlistens : n.kind ∈ (rule pairs).listens ↔ n.kind = .callExpression := List.mem_singleton
  rw [Rule.refusal?, refused?, if_congr hlistens rfl rfl]
  by_cases hkind : n.kind = .callExpression
  · cases hcallee : n.callee with
    | none => simp [rule, Node.requireCallee, hcallee, hkind]
    | some callee => simp [rule, Node.requireCallee, hcallee, fault?_bind, pure, Except.pure]
  · simp [hkind]

end HookPairing

/-! ### Clearing before typing -/

namespace ClearBeforeType

/-- Whether a node is a member expression that is not computed. -/
def isPlainMember (n : Node) : Bool := n.kind == .memberExpression && !n.modifiers.isComputed

/-- What a call **lacks** for its method to be told: a callee, or the object or the property of a
callee that is a plain member expression. -/
def lacking? (n : Node) : Option Malformed :=
  if n.kind = .callExpression then
    match n.callee with
    | none => some (.noCallee .callExpression)
    | some callee =>
      if isPlainMember callee && (callee.member.isNone || callee.receiver.isNone) then
        some .noMember
      else none
  else none

/-- Whether a node is a call of the method with this name: of the identifier after the dot of a
plain member expression. -/
def isMethodCall (name : String) (n : Node) : Bool :=
  n.kind == .callExpression && n.callee.any fun callee =>
    isPlainMember callee && callee.member.any (·.isNamed name)

/-- What the rule refuses: a call that lacks something or, after a call `.type(...)`, what the call
**before it** lacks. -/
def refused? (n : Node) : Option Malformed :=
  (lacking? n).or
    (if isMethodCall "type" n then (n.callee.bind Node.receiver).bind lacking? else none)

/-- Telling the method of a call fails exactly for **what the call lacks**. -/
theorem fault?_methodName? (n : Node) : fault? (methodName? n) = lacking? n := by
  rw [methodName?, lacking?]
  split
  · next hkind =>
    cases hcallee : n.callee with
    | none => simp [Node.requireCallee, hcallee, hkind, fault?_bind]
    | some callee =>
        by_cases hmember : callee.kind = .memberExpression ∧ callee.modifiers.isComputed = false
        · cases hm : callee.member <;> cases hr : callee.receiver <;>
            simp [Node.requireCallee, Node.requireMember, hcallee, fault?_bind, hmember, hm, hr,
              isPlainMember, pure, Except.pure]
        · have hplain : isPlainMember callee = false := by
            simpa [isPlainMember] using hmember
          simp [Node.requireCallee, hcallee, fault?_bind, hmember, hplain, pure, Except.pure]
  · rfl

/-- A call whose method can be told is a call of the method that **is told**. -/
theorem eq_some_iff_isMethodCall {n : Node} {told : Option String} (h : methodName? n = .ok told)
    (name : String) : told = some name ↔ isMethodCall name n := by
  rw [methodName?] at h
  split at h
  · next hkind =>
    obtain ⟨callee, hrequire, h⟩ := bind_eq_ok.mp h
    have hcallee : n.callee = some callee := by
      cases hcase : n.callee <;> simp_all [Node.requireCallee]
    split at h
    · next hmember =>
      obtain ⟨member, hrequire', h⟩ := bind_eq_ok.mp h
      have hmember' : callee.member = some member := by
        cases hm : callee.member <;> cases hr : callee.receiver <;>
          simp_all [Node.requireMember]
      obtain rfl := Except.ok.inj h
      cases hid : member.isIdentifier <;>
        simp [isMethodCall, isPlainMember, hkind, hcallee, hmember, hmember', Node.isNamed, hid]
    · next hmember =>
      obtain rfl := Except.ok.inj h
      have hplain : isPlainMember callee = false := by simpa [isPlainMember] using hmember
      simp [isMethodCall, hcallee, hplain]
  · next hkind =>
    obtain rfl := Except.ok.inj h
    simp [isMethodCall, hkind]

/-- Checking a call fails exactly for **what is refused**. -/
theorem fault?_check {n : Node} (hkind : n.kind = .callExpression) :
    fault? (check n) = refused? n := by
  rw [check, fault?_bind, refused?, ← fault?_methodName?]
  cases hname : methodName? n with
  | error fault => rfl
  | ok name =>
      have hcallee : ∃ callee, n.callee = some callee := by
        rw [methodName?, if_pos hkind] at hname
        obtain ⟨callee, hrequire, -⟩ := bind_eq_ok.mp hname
        cases hcase : n.callee <;> simp_all [Node.requireCallee]
      obtain ⟨callee, hcallee⟩ := hcallee
      have htype : name = some "type" ↔ isMethodCall "type" n :=
        eq_some_iff_isMethodCall hname "type"
      by_cases h : name = some "type"
      · simp only [h, if_true, htype.mp h, Node.requireCallee, hcallee, fault?_bind, fault?_ok,
          Option.none_or, Option.bind_some]
        cases callee.receiver with
        | none => simp [fault?_bind, pure, Except.pure]
        | some receiver =>
            simp only [Option.bind_some, ← fault?_methodName?]
            cases methodName? receiver with
            | error fault => rfl
            | ok before =>
                simp only [fault?_bind, fault?_ok]
                split <;> rfl
      · have hnot : isMethodCall "type" n = false := by simpa [htype] using h
        simp [h, hnot, pure, Except.pure]

/-- The rule on cleared inputs refuses **what it says**. -/
theorem refusal?_rule (n : Node) : rule.refusal? n = refused? n := by
  have hlistens : n.kind ∈ rule.listens ↔ n.kind = .callExpression := List.mem_singleton
  rw [Rule.refusal?, if_congr hlistens rfl rfl]
  split
  · next hkind => exact fault?_check hkind
  · next hkind => simp [refused?, lacking?, isMethodCall, hkind]

end ClearBeforeType

/-! ### Page singletons -/

namespace PageSingleton

/-- Whether a class member **declares** the singleton: it is declared as one, and made by `new` from
the class itself without arguments. -/
def declares (fieldName className : String) (member : Node) : Bool :=
  isDeclaredSingleton fieldName member && member.value.any fun value =>
    value.kind == .newExpression && value.callee.any (·.isNamed className) &&
      value.arguments.isEmpty

/-- What a class member **lacks** that is declared as the singleton: its value is made by `new`, but
has no callee. -/
def lacking? (fieldName : String) (member : Node) : Option Malformed :=
  if isDeclaredSingleton fieldName member &&
      member.value.any fun value => value.kind == .newExpression && value.callee.isNone then
    some (.noCallee .newExpression)
  else none

/-- What the rule refuses: a page class with a member that lacks something, **before** any member
that declares the singleton. -/
def refused? (suffix fieldName : String) (n : Node) : Option Malformed :=
  if n.kind = .classDeclaration then
    match pageName? suffix n with
    | none => none
    | some className =>
      (n.body.takeWhile fun member => !declares fieldName className member).findSome?
        (lacking? fieldName)
  else none

/-- A member is found to be the singleton exactly if it **declares it**. -/
theorem isSingletonField_eq_true_iff (fieldName className : String) (member : Node) :
    isSingletonField fieldName className member = .ok true ↔
      declares fieldName className member := by
  rw [isSingletonField, declares]
  cases isDeclaredSingleton fieldName member with
  | false => simp
  | true =>
      cases member.value with
      | none => simp
      | some value =>
          by_cases hkind : value.kind = .newExpression
          · cases hcallee : value.callee <;>
              simp [hkind, hcallee, Node.requireCallee, bind, Except.bind, pure, Except.pure]
          · simp [hkind]

/-- Looking for the singleton fails at a member exactly for **what the member lacks**. -/
theorem fault?_isSingletonField (fieldName className : String) (member : Node) :
    fault? (isSingletonField fieldName className member) = lacking? fieldName member := by
  rw [isSingletonField, lacking?]
  cases isDeclaredSingleton fieldName member with
  | false => rfl
  | true =>
      cases member.value with
      | none => rfl
      | some value =>
          by_cases hkind : value.kind = .newExpression
          · cases hcallee : value.callee <;>
              simp [hkind, hcallee, Node.requireCallee, fault?_bind, pure, Except.pure]
          · simp [hkind]

/-- The rule on singletons refuses **what it says**. -/
theorem refusal?_rule (suffix fieldName : String) (n : Node) :
    (rule suffix fieldName).refusal? n = refused? suffix fieldName n := by
  have hlistens : n.kind ∈ (rule suffix fieldName).listens ↔ n.kind = .classDeclaration :=
    List.mem_singleton
  rw [Rule.refusal?, refused?, if_congr hlistens rfl rfl]
  change (if n.kind = .classDeclaration then fault? (check suffix fieldName n) else none) = _
  rw [check]
  cases pageName? suffix n with
  | none => rfl
  | some className =>
      have hany : fault? (n.body.anyM (isSingletonField fieldName className)) =
          (n.body.takeWhile fun member => !declares fieldName className member).findSome?
            (lacking? fieldName) := by
        rw [fault?_anyM (isSingletonField_eq_true_iff fieldName className)]
        simp only [fault?_isSingletonField]
      simp only [fault?_bind, ← hany]
      cases n.body.anyM (isSingletonField fieldName className) with
      | error fault => rfl
      | ok isDeclared => cases isDeclared <;> rfl

end PageSingleton

end TreeLint
