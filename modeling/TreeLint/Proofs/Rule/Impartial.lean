import TreeLint.Proofs.Build.KeyOrder
import TreeLint.Proofs.Rule.Refusal
import TreeLint.Rule.Registry

/-!
# Impartial Rules

A rule is **impartial** (`Rule.Impartial`) if it makes no difference between alike nodes: it refuses
both for one reason, or finds the same at both. A rule that looked at labels, or at the order of
members inside a value, would not be. The rules of the library look at kinds, names and modifiers,
and at whether a method is called a constructor, of a node and of what it refers to.

## Main results

* `Alike.requireCallee`, `Alike.requireMember`: what rules ask for.
* `impartial_of_mem_builtin`: the rules of the library are impartial.
-/

namespace TreeLint

/-- Findings that are the same at **alike nodes**. -/
structure Finding.Alike (f g : Finding) : Prop where
  node : f.node.Alike g.node
  violation : g.violation = f.violation
  message : g.message = f.message

/-- A rule that is **impartial** between alike nodes. -/
structure Rule.Impartial (rule : Rule) : Prop where
  check : ∀ n m, n.Alike m → Agrees (List.Forall₂ Finding.Alike) (rule.check n) (rule.check m)
  finish : ∀ ns ms, List.Forall₂ Node.Alike ns ms →
    List.Forall₂ Finding.Alike (rule.finish ns) (rule.finish ms)

/-! ### Tests of related items -/

section Tests

variable {α β : Type} {R : α → β → Prop} {xs : List α} {ys : List β}

/-- What is found first among related items is **related**. -/
theorem rel_find? {p : α → Bool} {q : β → Bool} (h : List.Forall₂ R xs ys)
    (hpq : ∀ x y, R x y → p x = q y) : Option.Rel R (xs.find? p) (ys.find? q) := by
  induction h with
  | nil => exact .none
  | @cons x y xs ys hxy _ ih =>
      rw [List.find?_cons, List.find?_cons, ← hpq x y hxy]
      cases p x with
      | true => exact .some hxy
      | false => exact ih

/-- Some item passes a test exactly if **a related one** does. -/
theorem any_eq_of_forall₂ {p : α → Bool} {q : β → Bool} (h : List.Forall₂ R xs ys)
    (hpq : ∀ x y, R x y → p x = q y) : xs.any p = ys.any q := by
  induction h with
  | nil => rfl
  | cons hxy _ ih => rw [List.any_cons, List.any_cons, hpq _ _ hxy, ih]

/-- Some item passes a test that can fail exactly if **a related one** does, with the same fault if
any. -/
theorem anyM_eq_of_forall₂ {ε : Type} {p : α → Except ε Bool} {q : β → Except ε Bool}
    (h : List.Forall₂ R xs ys) (hpq : ∀ x y, R x y → p x = q y) : xs.anyM p = ys.anyM q := by
  induction h with
  | nil => rfl
  | cons hxy _ ih => rw [List.anyM, List.anyM, hpq _ _ hxy, ih]

/-- Related lists are **both empty**, or neither is. -/
theorem isEmpty_eq_of_forall₂ (h : List.Forall₂ R xs ys) : xs.isEmpty = ys.isEmpty := by
  cases h <;> rfl

end Tests

namespace Node.Alike

variable {n m : Node}

/-- Alike nodes have **alike callees**, or are refused for one reason. -/
theorem requireCallee (h : n.Alike m) : Agrees Alike n.requireCallee m.requireCallee := by
  have hrel := h.toMatches.callee
  rw [Node.requireCallee, Node.requireCallee, h.toMatches.kind]
  generalize n.callee = a, m.callee = b at hrel
  cases hrel with
  | none => exact .error _
  | some hab => exact .ok hab

/-- Alike nodes have **alike members**, or lack them alike. -/
theorem requireMember (h : n.Alike m) : Agrees Alike n.requireMember m.requireMember := by
  have hmember := h.toMatches.member
  have hreceiver := h.toMatches.receiver
  rw [Node.requireMember, Node.requireMember]
  generalize n.member = a, m.member = b at hmember
  generalize n.receiver = c, m.receiver = d at hreceiver
  cases hmember with
  | none => exact .error _
  | some hab =>
      cases hreceiver with
      | none => exact .error _
      | some => exact .ok hab

end Node.Alike

/-! ### The rules -/

namespace ClearBeforeType

variable {n m : Node}

/-- Alike calls are of **the same method**, or fail alike. -/
theorem methodName?_eq (h : n.Alike m) : methodName? n = methodName? m := by
  rw [methodName?, methodName?, h.toMatches.kind]
  split
  · refine (h.requireCallee.bind fun c c' hcallee => ?_).eq
    rw [hcallee.toMatches.kind, hcallee.toMatches.modifiers]
    split
    · refine hcallee.requireMember.bind fun a a' hmember => .ok ?_
      rw [hmember.isIdentifier, hmember.toMatches.name]
    · exact .ok rfl
  · rfl

/-- The rule on cleared inputs is **impartial**. -/
theorem impartial_rule : ClearBeforeType.rule.Impartial where
  finish _ _ _ := .nil
  check n m h := by
    -- of the two findings only the anchors differ
    have hverdict : ∀ before : Option String, Agrees (List.Forall₂ Finding.Alike)
        (if before = some "clear" then pure []
          else pure [⟨n, .missingClearBeforeType, message⟩] : Except Malformed (List Finding))
        (if before = some "clear" then pure []
          else pure [⟨m, .missingClearBeforeType, message⟩]) := by
      intro before
      split
      · exact .ok .nil
      · exact .ok (.cons ⟨h, rfl, rfl⟩ .nil)
    change Agrees _ (check n) (check m)
    rw [check, check, methodName?_eq h]
    cases methodName? m with
    | error fault => exact .error fault
    | ok name =>
        by_cases htype : name = some "type"
        · subst htype
          refine h.requireCallee.bind fun c c' hcallee => ?_
          have hreceiver := hcallee.toMatches.receiver
          generalize c.receiver = a, c'.receiver = b at hreceiver
          cases hreceiver with
          | none => exact hverdict none
          | some hab =>
              dsimp only
              rw [methodName?_eq hab]
              cases methodName? _ with
              | error fault => exact .error fault
              | ok before => exact hverdict before
        · simp only [bind, Except.bind, if_neg htype]
          exact .ok .nil

end ClearBeforeType

namespace HookPairing

variable {n m : Node}

/-- Alike calls both have **a callback**, or neither has. -/
theorem hasCallback_eq (h : n.Alike m) : hasCallback n = hasCallback m := by
  have hrel := h.toMatches.arguments
  rw [hasCallback, hasCallback]
  generalize n.arguments = xs, m.arguments = ys at hrel
  cases hrel with
  | nil => rfl
  | cons hxy _ => simp only [Node.isFunction, hxy.toMatches.kind]

/-- Alike calls call **the same hook**, or none. -/
theorem hookName?_eq (h : n.Alike m) : hookName? n = hookName? m := by
  have hrel := h.toMatches.callee
  rw [hookName?, hookName?, hasCallback_eq h]
  generalize n.callee = a, m.callee = b at hrel
  cases hrel with
  | none => rfl
  | some hab => simp only [hab.isIdentifier, hab.toMatches.name]

/-- For alike calls a pair of hooks has **alike findings**. -/
theorem alike_findingsFor {calls calls' : List Node} (h : List.Forall₂ Node.Alike calls calls')
    (pair : HookPair) :
    List.Forall₂ Finding.Alike (findingsFor calls pair) (findingsFor calls' pair) := by
  have hcalls : ∀ name : String, ∀ n m : Node, n.Alike m →
      (hookName? n == some name) = (hookName? m == some name) :=
    fun name n m hnm => by rw [hookName?_eq hnm]
  have hfirst := rel_find? h (hcalls pair.setup)
  have hany := any_eq_of_forall₂ h (hcalls pair.teardown)
  rw [findingsFor_eq, findingsFor_eq, hany]
  generalize calls.find? _ = a, calls'.find? _ = b at hfirst
  cases hfirst with
  | none => exact .nil
  | some hab =>
      dsimp only
      split
      · exact .nil
      · exact .cons ⟨hab, rfl, rfl⟩ .nil

/-- The rule on hooks is **impartial**. -/
theorem impartial_rule (pairs : List HookPair) : (HookPairing.rule pairs).Impartial where
  check _ _ h := h.requireCallee.bind fun _ _ _ => .ok .nil
  finish _ _ h :=
    List.rel_flatMap (List.forall₂_same.mpr fun _ _ => rfl) fun {pair _} heq =>
      heq ▸ alike_findingsFor h pair

end HookPairing

namespace PageSingleton

variable {n m : Node}

/-- Alike classes can both be made **without arguments**, or neither can. -/
theorem isDefaultConstructible_eq (h : n.Alike m) :
    isDefaultConstructible n = isDefaultConstructible m := by
  have hmethod : Option.Rel Node.Alike (constructor? n) (constructor? m) :=
    rel_find? h.toMatches.body fun a b hab => by
      rw [hab.toMatches.kind, hab.toMatches.methodKind.str?]
  rw [isDefaultConstructible, isDefaultConstructible]
  generalize constructor? n = a, constructor? m = b at hmethod
  cases hmethod with
  | none => rfl
  | @some method method' hmethod =>
      have hvalue := hmethod.toMatches.value
      dsimp only
      generalize method.value = c, method'.value = d at hvalue
      cases hvalue with
      | none => rfl
      | some hfunction => exact isEmpty_eq_of_forall₂ hfunction.toMatches.params

/-- Alike classes have **the same name** as pages, or none. -/
theorem pageName?_eq (suffix : String) (h : n.Alike m) :
    pageName? suffix n = pageName? suffix m := by
  rw [pageName?, pageName?, h.toMatches.name, h.toMatches.modifiers, isDefaultConstructible_eq h]

/-- Alike class members both **declare the singleton**, or neither does, or they fail alike. -/
theorem isSingletonField_eq (fieldName className : String) (h : n.Alike m) :
    isSingletonField fieldName className n = isSingletonField fieldName className m := by
  have hvalue := h.toMatches.value
  rw [isSingletonField, isSingletonField, isDeclaredSingleton, isDeclaredSingleton,
    h.toMatches.kind, h.toMatches.modifiers, h.toMatches.name]
  generalize n.value = a, m.value = b at hvalue
  cases hvalue with
  | none => rfl
  | some hab =>
      dsimp only
      rw [hab.toMatches.kind, isEmpty_eq_of_forall₂ hab.toMatches.arguments]
      split
      · split
        · refine (hab.requireCallee.bind fun c c' hcallee => .ok ?_).eq
          rw [Node.isNamed, Node.isNamed, hcallee.isIdentifier, hcallee.toMatches.name]
        · rfl
      · rfl

/-- The rule on singletons is **impartial**. -/
theorem impartial_rule (suffix fieldName : String) :
    (PageSingleton.rule suffix fieldName).Impartial where
  finish _ _ _ := .nil
  check n m h := by
    change Agrees _ (check suffix fieldName n) (check suffix fieldName m)
    rw [check, check, pageName?_eq suffix h]
    cases pageName? suffix m with
    | none => exact .ok .nil
    | some className =>
        dsimp only
        rw [anyM_eq_of_forall₂ h.toMatches.body fun _ _ =>
          isSingletonField_eq fieldName className]
        cases m.body.anyM (isSingletonField fieldName className) with
        | error fault => exact .error fault
        | ok isDeclared =>
            cases isDeclared with
            | true => exact .ok .nil
            | false => exact .ok (.cons ⟨h, rfl, rfl⟩ .nil)

end PageSingleton

/-- Every rule that comes with the library is **impartial**. -/
theorem impartial_of_mem_builtin {spec : RuleSpec} (h : spec ∈ Registry.builtin)
    (settings : Settings) : (spec.build settings).Impartial := by
  simp only [Registry.builtin, List.mem_cons, List.not_mem_nil, or_false] at h
  rcases h with rfl | rfl | rfl
  · exact PageSingleton.impartial_rule settings.pageSuffix settings.requiredFieldName
  · exact HookPairing.impartial_rule settings.hookPairs
  · exact ClearBeforeType.impartial_rule

end TreeLint
