import TreeLint.Proofs.Walk.Steps

/-!
# Invariants of a Walk

A walk keeps whatever its listeners keep. If no listener refuses a node of a certain sort, and each
takes a state with some property to another one with it (`Listeners.Preserve`), then a walk over a
tree of such nodes comes to its end without a fault, and the property holds there
(`exists_walk_of_preserve`).
-/

namespace TreeLint

variable {σ : Type} {Q : Node → Prop} {I : σ → Prop}

/-- Every listener of a list **preserves** a property of the state at nodes of a sort, and refuses
none of them. -/
def Preserve (Q : Node → Prop) (I : σ → Prop) (listeners : List (Kind × Listener σ)) : Prop :=
  ∀ kind listener, (kind, listener) ∈ listeners → ∀ n state, kind = n.kind → Q n → I state →
    ∃ state', listener n state = .ok state' ∧ I state'

/-- All listeners preserve a property of the state, at nodes of a sort and at the end. -/
structure Listeners.Preserve (listeners : Listeners σ) (Q : Node → Prop) (I : σ → Prop) : Prop where
  enter : TreeLint.Preserve Q I listeners.enter
  leave : TreeLint.Preserve Q I listeners.leave
  finish : ∀ f ∈ listeners.finish, ∀ state, I state → I (f state)

/-- Listeners that preserve a property do so **one after the other**. -/
theorem Preserve.exists_notify {listeners : List (Kind × Listener σ)}
    (h : Preserve Q I listeners) {n : Node} (hn : Q n) {state : σ} (hstate : I state) :
    ∃ state', notify listeners n state = ⟨state', none⟩ ∧ I state' := by
  induction listeners generalizing state with
  | nil => exact ⟨state, rfl, hstate⟩
  | cons entry rest ih =>
      obtain ⟨kind, listener⟩ := entry
      have hrest : Preserve Q I rest := fun k l hl => h k l (List.mem_cons_of_mem _ hl)
      rw [notify]
      split
      · next hkind =>
        obtain ⟨state', hlistener, hstate'⟩ :=
          h kind listener List.mem_cons_self n state hkind hn hstate
        rw [hlistener]
        exact ih hrest hstate'
      · exact ih hrest hstate

namespace Listeners

variable {listeners : Listeners σ}

/-- **One step** at a node of the sort is performed without a fault and keeps the property. -/
theorem Preserve.exists_perform (h : listeners.Preserve Q I) {step : Step}
    (henter : ∀ n, step = .enter n → Q n ∧ n.HasChildNodes) (hleave : ∀ n, step = .leave n → Q n)
    {state : σ} (hstate : I state) :
    ∃ state', listeners.perform step state = ⟨state', none⟩ ∧ I state' := by
  cases step with
  | leave n => exact h.leave.exists_notify (hleave n rfl) hstate
  | enter n =>
      obtain ⟨hn, hchildNodes⟩ := henter n rfl
      obtain ⟨children, hchildren⟩ := Node.exists_requireChildren_iff.mpr hchildNodes
      obtain ⟨state', hnotify, hstate'⟩ := h.enter.exists_notify hn hstate
      exact ⟨state', by simp only [perform, hnotify, hchildren], hstate'⟩

/-- What listeners preserve at each step holds **after all steps**. -/
theorem Preserve.exists_performAll (h : listeners.Preserve Q I) {steps : List Step}
    (henter : ∀ n, .enter n ∈ steps → Q n ∧ n.HasChildNodes) (hleave : ∀ n, .leave n ∈ steps → Q n)
    {state : σ} (hstate : I state) :
    ∃ state', listeners.performAll steps state = ⟨state', none⟩ ∧ I state' := by
  induction steps generalizing state with
  | nil => exact ⟨state, rfl, hstate⟩
  | cons step rest ih =>
      obtain ⟨state', hperform, hstate'⟩ := h.exists_perform
        (fun n hn => henter n (hn ▸ List.mem_cons_self))
        (fun n hn => hleave n (hn ▸ List.mem_cons_self)) hstate
      rw [performAll, hperform]
      exact ih (fun n hn => henter n (List.mem_cons_of_mem _ hn))
        (fun n hn => hleave n (List.mem_cons_of_mem _ hn)) hstate'

end Listeners

/-- The recursive walk leaves only nodes that it enters. -/
theorem mem_preorder_of_leave {n m : Node} (h : .leave m ∈ n.steps) : m ∈ n.preorder := by
  obtain ⟨before, after, hsteps⟩ := List.append_of_mem h
  have hmem := enter_mem_of_leave m.self_mem_preorder hsteps
  rw [← enter_mem_steps, hsteps]
  exact List.mem_append_left _ hmem

/-- A walk over a tree of nodes of the sort **comes to its end**, and the property holds there. -/
theorem exists_walk_of_preserve {listeners : Listeners σ} (h : listeners.Preserve Q I) {n : Node}
    (hn : ∀ m ∈ n.preorder, Q m ∧ m.HasChildNodes) {state : σ} (hstate : I state) :
    ∃ state', listeners.walk (.node n) state = ⟨state', none⟩ ∧ I state' := by
  obtain ⟨state', hperform, hstate'⟩ := h.exists_performAll
    (fun m hm => hn m (enter_mem_steps.mp hm)) (fun m hm => (hn m (mem_preorder_of_leave hm)).1)
    hstate
  have hfinish : I (listeners.finish.foldl (fun state f => f state) state') :=
    List.foldlRecOn _ _ hstate' fun s hs f hf => h.finish f hf s hs
  exact ⟨_, by rw [Listeners.walk_node, hperform], hfinish⟩

end TreeLint
