import TreeLint.Proofs.Build.Contract
import TreeLint.Rule.Registry

/-!
# Rules Accept Sound Trees

A rule refuses a node when something that it needs is missing there. Rules look further than at
the node that they are told about: at the object of a callee and the call that this is, or at the
values of the fields of a class. So a rule is **accepting** if it never refuses a node from which
only sound nodes can be got to (`Rule.Accepting`), and reports only nodes that it was told about.

## Main results

* `accepting_of_mem_builtin`: every rule that comes with the library is accepting, whatever the
  settings.
-/

namespace TreeLint

/-- A rule that **accepts** every node of its kinds whose tree is sound, and reports only nodes
that it was told about. -/
structure Rule.Accepting (rule : Rule) : Prop where
  check : ∀ n, n.kind ∈ rule.listens → n.Throughout Node.Sound →
    ∃ findings, rule.check n = .ok findings ∧ ∀ f ∈ findings, f.node = n
  finish : ∀ seen, ∀ f ∈ rule.finish seen, f.node ∈ seen

/-! ### What a sound node has -/

namespace Node

/-- A sound call **has a callee**. -/
theorem exists_requireCallee {n : Node} (h : n.Sound) (hkind : n.kind.isInvocation) :
    ∃ callee, n.requireCallee = .ok callee ∧ n.callee = some callee := by
  obtain ⟨callee, hcallee⟩ := Option.isSome_iff_exists.mp (h.callee hkind)
  exact ⟨callee, by rw [requireCallee, hcallee], hcallee⟩

/-- A sound member expression **has a member**. -/
theorem exists_requireMember {n : Node} (h : n.Sound) (hkind : n.kind = .memberExpression) :
    ∃ member, n.requireMember = .ok member := by
  obtain ⟨hmember, hreceiver⟩ := h.member hkind
  obtain ⟨member, hmember⟩ := Option.isSome_iff_exists.mp hmember
  obtain ⟨receiver, hreceiver⟩ := Option.isSome_iff_exists.mp hreceiver
  exact ⟨member, by rw [requireMember, hmember, hreceiver]⟩

/-- A node refers to **its callee**. -/
theorem mem_referents_of_callee {n m : Node} (h : n.callee = some m) : m ∈ n.referents := by
  simp [referents, h]

/-- A node refers to **its receiver**. -/
theorem mem_referents_of_receiver {n m : Node} (h : n.receiver = some m) : m ∈ n.referents := by
  simp [referents, h]

/-- A node refers to **its value**. -/
theorem mem_referents_of_value {n m : Node} (h : n.value = some m) : m ∈ n.referents := by
  simp [referents, h]

/-- A node refers to **its body**. -/
theorem mem_referents_of_body {n m : Node} (h : m ∈ n.body) : m ∈ n.referents := by
  simp [referents, h]

end Node

/-! ### The rules -/

/-- In a sound tree it can be told which **method** a call is of, if any. -/
theorem ClearBeforeType.exists_methodName? {n : Node} (h : n.Throughout Node.Sound) :
    ∃ name, methodName? n = .ok name := by
  rw [methodName?]
  split
  · next hkind =>
    obtain ⟨callee, hrequire, hcallee⟩ := Node.exists_requireCallee h.self (by rw [hkind]; rfl)
    rw [hrequire]
    by_cases hmember : callee.kind = .memberExpression ∧ callee.modifiers.isComputed = false
    · have hsound := (h.referent (Node.mem_referents_of_callee hcallee)).self
      obtain ⟨member, hrequire'⟩ := Node.exists_requireMember hsound hmember.1
      exact ⟨_, by simp only [bind, Except.bind, if_pos hmember, hrequire']; rfl⟩
    · exact ⟨_, by simp only [bind, Except.bind, if_neg hmember]; rfl⟩
  · exact ⟨_, rfl⟩

/-- The rule on cleared inputs **accepts** sound trees. -/
theorem ClearBeforeType.accepting_rule : ClearBeforeType.rule.Accepting where
  finish _ f hf := nomatch hf
  check := by
    intro n hlistens h
    obtain hkind : n.kind = .callExpression := List.mem_singleton.mp hlistens
    obtain ⟨name, hname⟩ := exists_methodName? h
    obtain ⟨callee, hrequire, hcallee⟩ := Node.exists_requireCallee h.self (by rw [hkind]; rfl)
    change ∃ findings, check n = .ok findings ∧ ∀ f ∈ findings, f.node = n
    by_cases htype : name = some "type"
    · cases hreceiver : callee.receiver with
      | none =>
          refine ⟨[⟨n, .missingClearBeforeType, message⟩], ?_, by simp⟩
          simp [check, hname, htype, hrequire, hreceiver, bind, Except.bind, pure, Except.pure]
      | some receiver =>
          -- The call before this one is two references away: the object of the callee.
          obtain ⟨before, hbefore⟩ := exists_methodName?
            ((h.referent (Node.mem_referents_of_callee hcallee)).referent
              (Node.mem_referents_of_receiver hreceiver))
          refine ⟨if before = some "clear" then [] else [⟨n, .missingClearBeforeType, message⟩],
            ?_, by split <;> simp⟩
          simp only [check, hname, htype, hrequire, hreceiver, hbefore, bind, Except.bind, pure,
            Except.pure, if_true]
          split <;> rfl
    · refine ⟨[], ?_, by simp⟩
      simp [check, hname, htype, bind, Except.bind, pure, Except.pure]

/-- The rule on hooks **accepts** sound trees, and keeps only calls that it was told about. -/
theorem HookPairing.accepting_rule (pairs : List HookPair) :
    (HookPairing.rule pairs).Accepting where
  check := by
    intro n hlistens h
    obtain hkind : n.kind = .callExpression := List.mem_singleton.mp hlistens
    obtain ⟨callee, hrequire, -⟩ := Node.exists_requireCallee h.self (by rw [hkind]; rfl)
    refine ⟨[], ?_, by simp⟩
    simp [rule, hrequire, bind, Except.bind, pure, Except.pure]
  finish := by
    intro seen f hf
    obtain ⟨pair, -, hf⟩ := List.mem_flatMap.mp hf
    rw [findingsFor_eq] at hf
    split at hf
    · exact nomatch hf
    · next first hfirst =>
      split at hf
      · exact nomatch hf
      · rw [List.mem_singleton.mp hf]
        exact List.mem_of_find?_eq_some hfirst

/-- Whether a field of a class is the singleton can be told if the field's tree is sound. -/
theorem PageSingleton.exists_isSingletonField (fieldName className : String) {member : Node}
    (h : member.Throughout Node.Sound) :
    ∃ isSingleton, isSingletonField fieldName className member = .ok isSingleton := by
  rw [isSingletonField]
  split
  · split
    · exact ⟨_, rfl⟩
    · next value hvalue =>
      split
      · next hkind =>
        have hsound := (h.referent (Node.mem_referents_of_value hvalue)).self
        obtain ⟨callee, hrequire, -⟩ := Node.exists_requireCallee hsound (by rw [hkind]; rfl)
        exact ⟨_, by rw [hrequire]; rfl⟩
      · exact ⟨_, rfl⟩
  · exact ⟨_, rfl⟩

/-- The rule on singletons **accepts** sound trees. -/
theorem PageSingleton.accepting_rule (suffix fieldName : String) :
    (PageSingleton.rule suffix fieldName).Accepting where
  finish _ f hf := nomatch hf
  check := by
    intro n _ h
    change ∃ findings, check suffix fieldName n = .ok findings ∧ ∀ f ∈ findings, f.node = n
    rw [check]
    split
    · exact ⟨[], rfl, by simp⟩
    · next className _ =>
      obtain ⟨isDeclared, hany⟩ := exists_anyM fun member hmember =>
        exists_isSingletonField fieldName className
          (h.referent (Node.mem_referents_of_body (n := n) hmember))
      rw [hany]
      cases isDeclared with
      | true => exact ⟨[], rfl, by simp⟩
      | false => exact ⟨_, rfl, by simp⟩

/-- Every rule that comes with the library is **accepting**. -/
theorem accepting_of_mem_builtin {spec : RuleSpec} (h : spec ∈ Registry.builtin)
    (settings : Settings) : (spec.build settings).Accepting := by
  simp only [Registry.builtin, List.mem_cons, List.not_mem_nil, or_false] at h
  rcases h with rfl | rfl | rfl
  · exact PageSingleton.accepting_rule settings.pageSuffix settings.requiredFieldName
  · exact HookPairing.accepting_rule settings.hookPairs
  · exact ClearBeforeType.accepting_rule

end TreeLint
