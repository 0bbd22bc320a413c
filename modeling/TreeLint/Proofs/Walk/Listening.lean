import TreeLint.Proofs.Walk.Steps

/-!
# Telling Listeners

How listeners are told about a node: those of two lists one after the other, and one that listens
to several kinds once. A walk on which nobody listens to nodes that are left is a walk over the
nodes that are entered, and these can be written down (`recorder`).

## Main results

* `notify_append`, `notify_kinds`: telling several listeners, and one listener for several kinds.
* `Listeners.performAll_eq_of_leave`: a walk without listeners to nodes that are left.
* `walk_recorder`: the nodes that a walk of a tree enters.
-/

namespace TreeLint

variable {σ : Type}

/-- Listeners are notified **one list after the other**, up to the first fault. -/
theorem notify_append (xs ys : List (Kind × Listener σ)) (n : Node) (state : σ) :
    notify (xs ++ ys) n state =
      match notify xs n state with
      | ⟨state, some fault⟩ => ⟨state, some fault⟩
      | ⟨state, none⟩ => notify ys n state := by
  induction xs generalizing state with
  | nil => rfl
  | cons entry xs ih =>
      obtain ⟨kind, listener⟩ := entry
      simp only [List.cons_append, notify]
      split
      · cases listener n state with
        | ok state' => exact ih state'
        | error fault => rfl
      · exact ih state

/-- One listener for several kinds is told **once** about a node of any of them. -/
theorem notify_kinds {kinds : List Kind} (h : kinds.Nodup) (listener : Listener σ) (n : Node)
    (state : σ) :
    notify (kinds.map fun kind => (kind, listener)) n state =
      if n.kind ∈ kinds then
        match listener n state with
        | .ok state' => ⟨state', none⟩
        | .error fault => ⟨state, some fault⟩
      else ⟨state, none⟩ := by
  induction kinds generalizing state with
  | nil => rfl
  | cons kind kinds ih =>
      obtain ⟨hkind, hkinds⟩ := List.nodup_cons.mp h
      rw [List.map_cons, notify]
      by_cases heq : kind = n.kind
      · rw [if_pos heq, if_pos (heq ▸ List.mem_cons_self)]
        cases listener n state with
        | error fault => rfl
        | ok state' =>
            change notify (kinds.map fun kind => (kind, listener)) n state' = ⟨state', none⟩
            rw [ih hkinds, if_neg (heq ▸ hkind)]
      · have hmem : n.kind ∈ kind :: kinds ↔ n.kind ∈ kinds := by
          rw [List.mem_cons, or_iff_right (Ne.symm heq)]
        rw [if_neg heq, ih hkinds, if_congr hmem rfl rfl]

/-- A walk on which nobody listens to nodes that are left performs only the steps that **enter**
nodes. -/
theorem Listeners.performAll_eq_of_leave {listeners : Listeners σ} (h : listeners.leave = [])
    (steps : List Step) (state : σ) :
    listeners.performAll steps state = listeners.performAll ((entered steps).map .enter) state := by
  induction steps generalizing state with
  | nil => rfl
  | cons step steps ih =>
      cases step with
      | leave n =>
          rw [performAll, perform, h, notify]
          exact ih state
      | enter n =>
          change listeners.performAll (.enter n :: steps) state =
            listeners.performAll (.enter n :: (entered steps).map .enter) state
          simp only [performAll, ih]

/-! ### The record of a walk -/

/-- Listeners that **write down** every node that is entered. -/
def recorder : Listeners (List Node) where
  enter := Kind.all.map fun kind => (kind, fun n entered => .ok (entered ++ [n]))

/-- The recorder **writes down** the node. -/
theorem perform_recorder {n : Node} (h : n.HasChildNodes) (entered : List Node) :
    recorder.perform (.enter n) entered = ⟨entered ++ [n], none⟩ := by
  obtain ⟨children, hchildren⟩ := Node.exists_requireChildren_iff.mpr h
  have hnotify : notify recorder.enter n entered = ⟨entered ++ [n], none⟩ := by
    rw [recorder, notify_kinds (by decide), if_pos n.kind.mem_all]
  simp only [Listeners.perform, hnotify, hchildren]

/-- The recorder writes down **all nodes**, in order. -/
theorem performAll_recorder {nodes : List Node} (h : ∀ n ∈ nodes, n.HasChildNodes)
    (entered : List Node) :
    recorder.performAll (nodes.map .enter) entered = ⟨entered ++ nodes, none⟩ := by
  induction nodes generalizing entered with
  | nil => simp [Listeners.performAll]
  | cons n nodes ih =>
      obtain ⟨hn, hnodes⟩ := List.forall_mem_cons.mp h
      rw [List.map_cons, Listeners.performAll, perform_recorder hn]
      simpa using ih hnodes (entered ++ [n])

/-- A walk of a tree **enters** its nodes in pre-order. -/
theorem walk_recorder {n : Node} (h : n.IsTree) :
    recorder.walk (.node n) [] = ⟨n.preorder, none⟩ := by
  rw [Listeners.walk_node, Listeners.performAll_eq_of_leave rfl, entered_steps,
    performAll_recorder h]
  rfl

end TreeLint
