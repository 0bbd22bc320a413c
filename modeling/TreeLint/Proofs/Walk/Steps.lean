import Mathlib.Data.List.Basic
import TreeLint.Proofs.Fallible
import TreeLint.Tree.Walk

/-!
# The Recursive Walk

`walkSteps` works off a list of steps and puts the children of a node on it as it goes. Seen from
outside it does something simpler: it performs, one after another and until the first fault, the
steps of the **recursive walk** (`Node.steps`), which enters a node, walks its children in order,
and leaves the node. The list on which the loop works is always the recursive walk of what is
still to be entered, cut off where the loop is.

The children of a node are told from its `children` alone: they are a sequence of nodes
(`Node.HasChildNodes`), or something is wrong with them (`Node.childFault?`). A node with wrong
children counts as a leaf of the recursive walk. The loop never gets past the point where it enters
such a node.

## Main results

* `Node.requireChildren_eq_ok_iff`, `Node.fault?_requireChildren`: what the loop finds below a node.
* `walkSteps_eq_performAll`: the loop performs the recursive walk.
* `entered_steps`: the recursive walk enters nodes in pre-order.
* `enter_mem_of_leave`: a node is left only after everything at and below it has been entered.
-/

namespace TreeLint

variable {σ : Type}

/-! ### Nodes below a node -/

/-- The node that a child is. -/
def Child.node? : Child Node → Option Node
  | .node n => some n
  | .foreign _ => none

/-- The nodes of a sequence that holds **nothing but nodes**. -/
def Children.nodes? : Children Node → Option (List Node)
  | .sequence items => items.mapM Child.node?
  | .invalid => none

/-- Children that are nodes are a **sequence of these nodes**. -/
theorem Children.nodes?_eq_some_iff {cs : Children Node} {ns : List Node} :
    cs.nodes? = some ns ↔ cs = .sequence (ns.map .node) := by
  cases cs with
  | invalid => simp [nodes?]
  | sequence items =>
      rw [nodes?, Children.sequence.injEq]
      induction items generalizing ns with
      | nil => cases ns <;> simp
      | cons item rest ih =>
          rw [List.mapM_cons]
          cases item with
          | foreign type => cases ns <;> simp [Child.node?]
          | node m => cases ns <;> simp [Child.node?, ih, Option.bind_eq_some_iff, and_comm]

namespace Node

/-- The nodes that a walk visits right below a node. A node whose children are no sequence of
nodes has none. -/
def childNodes (n : Node) : List Node := n.children.nodes?.getD []

/-- Whether the children of a node are a sequence of nodes. -/
def HasChildNodes (n : Node) : Prop := ∃ ns : List Node, n.children = .sequence (ns.map .node)

/-- What is **wrong with the children** of a node: that they are no sequence, or the first of them
that is no node. -/
def childFault? (n : Node) : Option Malformed :=
  match n.children with
  | .invalid => some (.childrenNotASequence n.kind)
  | .sequence items => items.findSome? fun
    | .node _ => none
    | .foreign type => some (.foreignChild n.kind type)

/-- The children that the loop finds are **those of the node**, if they are nodes. -/
theorem requireChildren_eq_ok_iff {n : Node} {ns : List Node} :
    n.requireChildren = .ok ns ↔ n.children = .sequence (ns.map .node) := by
  rw [requireChildren]
  cases n.children with
  | invalid => simp
  | sequence items =>
      rw [Children.sequence.injEq]
      dsimp only
      induction items generalizing ns with
      | nil => cases ns <;> simp [pure, Except.pure]
      | cons item rest ih =>
          rw [List.mapM_cons, bind_eq_ok]
          cases item with
          | foreign type => cases ns <;> simp [Child.require]
          | node m =>
              simp only [Child.require, Except.ok.injEq, exists_eq_left', bind_eq_ok, ih]
              cases ns <;> simp [pure, Except.pure, and_comm]

/-- The loop finds a fault exactly if something is **wrong with the children**. -/
theorem fault?_requireChildren (n : Node) : fault? n.requireChildren = n.childFault? := by
  rw [requireChildren, childFault?]
  cases n.children with
  | invalid => rfl
  | sequence items =>
      rw [fault?_mapM]
      congr
      funext item
      cases item <;> rfl

/-- The loop gets past a node whose children are a **sequence of nodes**, and past no other. -/
theorem exists_requireChildren_iff {n : Node} :
    (∃ ns, n.requireChildren = .ok ns) ↔ n.HasChildNodes :=
  exists_congr fun _ => requireChildren_eq_ok_iff

/-- Nothing is wrong with the children of a node exactly if they are a **sequence of nodes**. -/
theorem hasChildNodes_iff {n : Node} : n.HasChildNodes ↔ n.childFault? = none := by
  rw [← fault?_requireChildren, fault?_eq_none_iff, exists_requireChildren_iff]

/-- The child nodes of a node are those of its children. -/
theorem childNodes_eq_of_children {n : Node} {ns : List Node}
    (h : n.children = .sequence (ns.map .node)) : n.childNodes = ns := by
  rw [childNodes, Children.nodes?_eq_some_iff.mpr h, Option.getD_some]

/-- A node with a child has a **sequence of nodes** for its children. -/
theorem children_of_mem_childNodes {n c : Node} (hc : c ∈ n.childNodes) :
    n.children = .sequence (n.childNodes.map .node) := by
  rw [childNodes] at hc ⊢
  cases h : n.children.nodes? with
  | none => simp [h] at hc
  | some ns => exact Children.nodes?_eq_some_iff.mp h

/-- A child weighs less than its parent. -/
theorem weight_lt_of_mem_childNodes {n c : Node} (hc : c ∈ n.childNodes) :
    c.weight < n.weight := by
  have hchildren := requireChildren_eq_ok_iff.mpr (children_of_mem_childNodes hc)
  have hle := le_total_of_mem (List.mem_map_of_mem hc : c.weight ∈ n.childNodes.map weight)
  exact Nat.lt_of_le_of_lt hle (total_weight_of_requireChildren hchildren)

/-- The **recursive walk**: enter the node, walk its children in order, leave the node. -/
def steps (n : Node) : List Step :=
  .enter n :: (n.childNodes.attach.flatMap fun c => c.1.steps) ++ [.leave n]
termination_by n.weight
decreasing_by exact weight_lt_of_mem_childNodes c.2

/-- The steps at a node have those of **its children** between entering and leaving it. -/
theorem steps_eq (n : Node) :
    n.steps = .enter n :: n.childNodes.flatMap steps ++ [.leave n] := by
  rw [steps, List.flatMap_subtype (fun _ _ => rfl), List.unattach_attach]

/-- The nodes at and below a node, in **pre-order**. -/
def preorder (n : Node) : List Node :=
  n :: n.childNodes.attach.flatMap fun c => c.1.preorder
termination_by n.weight
decreasing_by exact weight_lt_of_mem_childNodes c.2

/-- A node comes before everything **below it**. -/
theorem preorder_eq (n : Node) : n.preorder = n :: n.childNodes.flatMap preorder := by
  rw [preorder, List.flatMap_subtype (fun _ _ => rfl), List.unattach_attach]

/-- A node is **among its own** nodes. -/
theorem self_mem_preorder (n : Node) : n ∈ n.preorder := by
  rw [preorder_eq]
  exact List.mem_cons_self

/-- Whether every node of the walk has a sequence of nodes for its children. -/
def IsTree (n : Node) : Prop := ∀ m ∈ n.preorder, m.HasChildNodes

/-- What holds of a node whenever it holds of its children holds of every node. -/
@[elab_as_elim]
theorem induction_childNodes {P : Node → Prop} (h : ∀ n : Node, (∀ c ∈ n.childNodes, P c) → P n)
    (n : Node) : P n :=
  h n fun c _ => induction_childNodes h c
termination_by n.weight
decreasing_by exact weight_lt_of_mem_childNodes ‹_›

end Node

/-! ### Steps and the nodes that they enter -/

/-- The node that a step enters. -/
def Step.entered? : Step → Option Node
  | .enter n => some n
  | .leave _ => none

/-- The nodes that steps enter, in order. -/
def entered (steps : List Step) : List Node := steps.filterMap Step.entered?

/-- A node is entered exactly if there is **a step** for it. -/
theorem mem_entered {steps : List Step} {n : Node} : n ∈ entered steps ↔ .enter n ∈ steps := by
  simp only [entered, List.mem_filterMap]
  constructor
  · rintro ⟨step, hstep, h⟩
    cases step with
    | enter m =>
        obtain rfl : m = n := Option.some.inj h
        exact hstep
    | leave m => exact nomatch h
  · intro h
    exact ⟨.enter n, h, rfl⟩

/-- The recursive walk enters nodes **in pre-order**. -/
theorem entered_steps (n : Node) : entered n.steps = n.preorder := by
  induction n using Node.induction_childNodes with
  | h n ih =>
      have hchildren : ∀ cs : List Node, (∀ c ∈ cs, entered c.steps = c.preorder) →
          entered (cs.flatMap Node.steps) = cs.flatMap Node.preorder := by
        intro cs hcs
        simp only [entered, List.filterMap_flatMap]
        exact List.flatMap_congr hcs
      rw [Node.steps_eq, Node.preorder_eq, ← hchildren _ ih]
      simp [entered, Step.entered?]

/-- The nodes that are entered are **all of the tree**. -/
theorem enter_mem_steps {n k : Node} : .enter k ∈ n.steps ↔ k ∈ n.preorder := by
  rw [← mem_entered, entered_steps]

/-- Of steps that enter malformed nodes, one does so **first**. -/
theorem exists_first_malformed {steps : List Step}
    (h : ∃ k ∈ entered steps, ¬ k.HasChildNodes) :
    ∃ done m rest, steps = done ++ .enter m :: rest ∧ (∀ k ∈ entered done, k.HasChildNodes) ∧
      ¬ m.HasChildNodes := by
  induction steps with
  | nil =>
      obtain ⟨k, hk, -⟩ := h
      simp [entered] at hk
  | cons step steps ih =>
      by_cases hstep : ∃ m, step = .enter m ∧ ¬ m.HasChildNodes
      · obtain ⟨m, rfl, hm⟩ := hstep
        exact ⟨[], m, steps, rfl, by simp [entered], hm⟩
      · obtain ⟨k, hk, hbad⟩ := h
        have hk' : k ∈ entered steps := by
          rcases List.mem_cons.mp (mem_entered.mp hk) with rfl | hmem
          · exact absurd ⟨k, rfl, hbad⟩ hstep
          · exact mem_entered.mpr hmem
        obtain ⟨done, m, rest, rfl, hdone, hm⟩ := ih ⟨k, hk', hbad⟩
        refine ⟨step :: done, m, rest, rfl, fun j hj => ?_, hm⟩
        rcases List.mem_cons.mp (mem_entered.mp hj) with rfl | hmem
        · exact not_not.mp fun hj' => hstep ⟨j, rfl, hj'⟩
        · exact hdone j (mem_entered.mpr hmem)

/-- A step of two walks one after another is a step of the first or of the second. -/
theorem append_eq_append_cons {xs ys before after : List Step} {step : Step}
    (h : xs ++ ys = before ++ step :: after) :
    (∃ inner, xs = before ++ step :: inner) ∨
      ∃ inner, before = xs ++ inner ∧ ys = inner ++ step :: after := by
  rcases List.append_eq_append_iff.mp h with ⟨inner, hbefore, hys⟩ | ⟨inner, hxs, hinner⟩
  · exact .inr ⟨inner, hbefore, hys⟩
  · cases inner with
    | nil => exact .inr ⟨[], by simpa using hxs.symm, by simpa using hinner.symm⟩
    | cons first inner =>
        obtain ⟨rfl, -⟩ := List.cons.inj hinner
        exact .inl ⟨inner, hxs⟩

/-- A node is **left** only after everything at and below it has been entered. -/
theorem enter_mem_of_leave {n a k : Node} (hk : k ∈ a.preorder) {before after : List Step}
    (h : n.steps = before ++ .leave a :: after) : .enter k ∈ before := by
  induction n using Node.induction_childNodes generalizing before after with
  | h n ih =>
      have hchildren : ∀ cs : List Node, (∀ c ∈ cs, c ∈ n.childNodes) →
          ∀ {before after}, cs.flatMap Node.steps = before ++ .leave a :: after →
            .enter k ∈ before := by
        intro cs
        induction cs with
        | nil =>
            intro _ before after h
            simp at h
        | cons c cs ihcs =>
            intro hcs before after h
            rw [List.flatMap_cons] at h
            rcases append_eq_append_cons h with ⟨inner, hc⟩ | ⟨inner, rfl, hinner⟩
            · exact ih c (hcs c List.mem_cons_self) hc
            · exact List.mem_append_right _
                (ihcs (fun d hd => hcs d (List.mem_cons_of_mem c hd)) hinner)
      have hmem := enter_mem_steps.mpr hk
      rw [Node.steps_eq] at h
      rcases append_eq_append_cons h with ⟨inner, hinner⟩ | ⟨inner, rfl, hinner⟩
      · cases before with
        | nil => exact nomatch hinner
        | cons first before =>
            exact List.mem_cons_of_mem _ (hchildren _ (fun c hc => hc) (List.cons.inj hinner).2)
      · -- the node that is left is `n` itself, in the last step of its walk
        obtain ⟨rfl, rfl⟩ : inner = [] ∧ a = n := by
          cases inner with
          | nil => exact ⟨rfl, by injection (List.cons.inj hinner).1 with h; exact h.symm⟩
          | cons first inner => simp at hinner
        rw [Node.steps_eq] at hmem
        simpa using hmem

/-! ### The loop performs the recursive walk -/

namespace Listeners

/-- What one step does to the state, and the fault that it can end the walk with. -/
def perform (listeners : Listeners σ) (step : Step) (state : σ) : Outcome σ :=
  match step with
  | .leave n => notify listeners.leave n state
  | .enter n =>
    match notify listeners.enter n state with
    | ⟨state, some fault⟩ => ⟨state, some fault⟩
    | ⟨state, none⟩ =>
      match n.requireChildren with
      | .error fault => ⟨state, some fault⟩
      | .ok _ => ⟨state, none⟩

/-- Perform steps one after another, until the first fault. -/
def performAll (listeners : Listeners σ) : List Step → σ → Outcome σ
  | [], state => ⟨state, none⟩
  | step :: rest, state =>
    match listeners.perform step state with
    | ⟨state, some fault⟩ => ⟨state, some fault⟩
    | ⟨state, none⟩ => performAll listeners rest state

/-- Steps in a row are taken **one after the other**, up to the first fault. -/
theorem performAll_append (listeners : Listeners σ) (xs ys : List Step) (state : σ) :
    listeners.performAll (xs ++ ys) state =
      match listeners.performAll xs state with
      | ⟨state, some fault⟩ => ⟨state, some fault⟩
      | ⟨state, none⟩ => listeners.performAll ys state := by
  induction xs generalizing state with
  | nil => rfl
  | cons step xs ih =>
      simp only [List.cons_append, performAll]
      split
      · rfl
      · exact ih _

end Listeners

/-- The steps that a step of the loop stands for: entering a node stands for its whole walk. -/
def Step.unfolded : Step → List Step
  | .enter n => n.steps
  | .leave n => [.leave n]

/-- Children that are to be entered unfold to **all their steps**. -/
theorem flatMap_unfolded_enter (children : List Node) :
    (children.map .enter).flatMap Step.unfolded = children.flatMap Node.steps := by
  rw [List.flatMap_map]
  rfl

/-- **The loop performs the recursive walk** of everything on its list. -/
theorem walkSteps_eq_performAll (listeners : Listeners σ) (steps : List Step) (state : σ) :
    walkSteps listeners steps state = listeners.performAll (steps.flatMap Step.unfolded) state := by
  fun_induction walkSteps listeners steps state with
  | case1 state => rfl
  | case2 state n rest state' fault hleave =>
      simp [Step.unfolded, Listeners.performAll, Listeners.perform, hleave]
  | case3 state n rest state' hleave ih =>
      simp [Step.unfolded, Listeners.performAll, Listeners.perform, hleave, ih]
  | case4 state n rest state' fault henter =>
      simp [Step.unfolded, Node.steps_eq, Listeners.performAll, Listeners.perform, henter]
  | case5 state n rest state' henter fault hchildren =>
      simp [Step.unfolded, Node.steps_eq, Listeners.performAll, Listeners.perform, henter,
        hchildren]
  | case6 state n rest state' henter children hchildren ih =>
      rw [ih, List.flatMap_append, flatMap_unfolded_enter]
      simp [Step.unfolded, Node.steps_eq, Listeners.performAll, Listeners.perform, henter,
        hchildren, Node.childNodes_eq_of_children (Node.requireChildren_eq_ok_iff.mp hchildren)]

/-- A walk performs the recursive walk of its root, and tells the final listeners if no fault
ends it. -/
theorem Listeners.walk_node (listeners : Listeners σ) (n : Node) (state : σ) :
    listeners.walk (.node n) state =
      match listeners.performAll n.steps state with
      | ⟨state, some fault⟩ => ⟨state, some fault⟩
      | ⟨state, none⟩ => ⟨listeners.finish.foldl (fun state f => f state) state, none⟩ := by
  have hsteps : walkSteps listeners [.enter n] state = listeners.performAll n.steps state := by
    rw [walkSteps_eq_performAll, List.flatMap_singleton, Step.unfolded]
  rw [← hsteps]
  rfl

end TreeLint
