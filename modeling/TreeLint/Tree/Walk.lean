import TreeLint.Number.Total
import TreeLint.Tree.Node

/-!
# Walking a Tree

A walk visits the nodes of a tree depth first and tells listeners about it: those for a
node's kind when the node is **entered**, before its children, those for its kind when it
is **left**, after its last child, and the final ones once at the end. Listeners of one
event are told in the order in which they were registered.

Listeners share a state. A listener may refuse a node; then the walk stops there, the state
is the one before that listener, and nobody is told of anything more. The same happens when
a node's children are not a sequence of nodes, which is looked at after the node is entered.

The walk works off a list of steps (`walkSteps`), so deep trees need no deep recursion.
-/

namespace TreeLint

variable {σ : Type}

/-- A listener: it takes a node to a new state, or refuses it. -/
abbrev Listener (σ : Type) := Node → σ → Except Malformed σ

/-- The listeners of a walk, each list in order of registration. -/
structure Listeners (σ : Type) where
  enter : List (Kind × Listener σ) := []
  leave : List (Kind × Listener σ) := []
  finish : List (σ → σ) := []

/-- How far a walk came: the state at its end, and the fault that ended it early. -/
structure Outcome (σ : Type) where
  state : σ
  fault : Option Malformed := none

/-- Tell the listeners for the node's kind, in order, until one refuses it. -/
def notify (listeners : List (Kind × Listener σ)) (n : Node) (state : σ) : Outcome σ :=
  match listeners with
  | [] => ⟨state, none⟩
  | (kind, listener) :: rest =>
    if kind = n.kind then
      match listener n state with
      | .ok state => notify rest n state
      | .error fault => ⟨state, some fault⟩
    else notify rest n state

/-- A step of a walk. -/
inductive Step where
  | enter (n : Node)
  | leave (n : Node)

/-- What a step can cost: it bounds the number of steps that it brings about. -/
def Step.weight : Step → Nat
  | .enter n => 2 * n.weight
  | .leave _ => 1

/-- The cost of a list of steps. -/
def stepsWeight (steps : List Step) : Nat := total (steps.map Step.weight)

/-- The children of a node weigh **less than the node**. -/
theorem total_weight_of_requireChildren {n : Node} {children : List Node}
    (h : n.requireChildren = .ok children) : total (children.map Node.weight) < n.weight := by
  have key : ∀ (items : List (Child Node)) (children : List Node),
      items.mapM (Child.require n.kind) = .ok children →
        total (children.map Node.weight) ≤ Child.weightAll items := by
    intro items
    induction items with
    | nil =>
      intro children h
      simp only [List.mapM_nil] at h
      obtain rfl : [] = children := Except.ok.inj h
      simp
    | cons item rest ih =>
      intro children h
      rw [List.mapM_cons] at h
      cases item with
      | foreign type => simp [Child.require, bind, Except.bind] at h
      | node child =>
        simp only [Child.require, bind, Except.bind] at h
        split at h
        · cases h
        · next others hothers =>
          have := ih _ hothers
          obtain rfl : child :: others = children := Except.ok.inj h
          simp only [List.map_cons, total_cons, Child.weightAll, Child.weight]
          omega
  simp only [Node.requireChildren] at h
  split at h
  · cases h
  · next items hitems =>
    have := key items children h
    cases n
    simp only at hitems
    subst hitems
    simp only [Node.weight, Children.weight]
    omega

/-- Entering a node leaves **less to do**. -/
theorem stepsWeight_enter_lt {n : Node} {children : List Node}
    (h : n.requireChildren = .ok children) (rest : List Step) :
    stepsWeight (children.map .enter ++ .leave n :: rest) < stepsWeight (.enter n :: rest) := by
  have key : ∀ ns : List Node,
      total (List.map (Step.weight ∘ Step.enter) ns) = 2 * total (ns.map Node.weight) := by
    intro ns
    induction ns with
    | nil => rfl
    | cons n ns ih =>
      simp only [List.map_cons, total_cons, ih, Function.comp, Step.weight]
      omega
  have := total_weight_of_requireChildren h
  simp only [stepsWeight, List.map_append, List.map_map, total_append, List.map_cons,
    total_cons, Step.weight, key]
  omega

/-- Work off the steps of a walk. -/
def walkSteps (listeners : Listeners σ) (steps : List Step) (state : σ) : Outcome σ :=
  match steps with
  | [] => ⟨state, none⟩
  | .leave n :: rest =>
    match notify listeners.leave n state with
    | ⟨state, some fault⟩ => ⟨state, some fault⟩
    | ⟨state, none⟩ => walkSteps listeners rest state
  | .enter n :: rest =>
    match notify listeners.enter n state with
    | ⟨state, some fault⟩ => ⟨state, some fault⟩
    | ⟨state, none⟩ =>
      match _h : n.requireChildren with
      | .error fault => ⟨state, some fault⟩
      | .ok children => walkSteps listeners (children.map .enter ++ .leave n :: rest) state
termination_by stepsWeight steps
decreasing_by
  · simp only [stepsWeight, List.map_cons, total_cons, Step.weight]; omega
  · exact stepsWeight_enter_lt (by assumption) rest

/-- **Walk a tree**: visit every node below the root, then tell the final listeners. -/
def Listeners.walk (listeners : Listeners σ) (root : Root) (state : σ) : Outcome σ :=
  match root with
  | .foreign type => ⟨state, some (.foreignRoot type)⟩
  | .node n =>
    match walkSteps listeners [.enter n] state with
    | ⟨state, some fault⟩ => ⟨state, some fault⟩
    | ⟨state, none⟩ => ⟨listeners.finish.foldl (fun state f => f state) state, none⟩

end TreeLint
