import TreeLint.Proofs.Walk.Steps

/-!
# The Events of a Walk

Who is told what, and in which order, is seen best with listeners that do nothing but write down
that they were called. `Subscriptions` are such listeners: each has a tag, and each call adds an
`Event` with the tag to a log.

The events of a walk are those of the **recursive walk** (`Subscriptions.visit`): at a node first
the enter events of its kind, in the order of subscription, then the events of its children, one
after another, then the leave events of its kind. A node whose children are no sequence of nodes
ends the walk as soon as it is entered, and the events are the part of the recursive walk up to
there.

## Main results

* `visit_eq_flatMap`: the recursive walk, event by event, follows the recursive walk step by step.
* `walk_events`: the events of a walk, for every root and all subscriptions.
-/

namespace TreeLint

/-- A call of a listener. -/
inductive Event (τ : Type) where
  | enter (tag : τ) (n : Node)
  | leave (tag : τ) (n : Node)
  | finish (tag : τ)

/-- Listeners by their tags, each list in order of registration. -/
structure Subscriptions (τ : Type) where
  enter : List (Kind × τ) := []
  leave : List (Kind × τ) := []
  finish : List τ := []

variable {τ : Type}

namespace Subscriptions

/-- The listeners that add their calls to a log. -/
def listeners (subs : Subscriptions τ) : Listeners (List (Event τ)) where
  enter := subs.enter.map fun (kind, tag) => (kind, fun n log => .ok (log ++ [.enter tag n]))
  leave := subs.leave.map fun (kind, tag) => (kind, fun n log => .ok (log ++ [.leave tag n]))
  finish := subs.finish.map fun tag log => log ++ [.finish tag]

/-- The events at a node that is entered. -/
def entering (subs : Subscriptions τ) (n : Node) : List (Event τ) :=
  (subs.enter.filter fun sub => sub.1 = n.kind).map fun sub => .enter sub.2 n

/-- The events at a node that is left. -/
def leaving (subs : Subscriptions τ) (n : Node) : List (Event τ) :=
  (subs.leave.filter fun sub => sub.1 = n.kind).map fun sub => .leave sub.2 n

/-- The events at the end. -/
def finishing (subs : Subscriptions τ) : List (Event τ) := subs.finish.map .finish

/-- The events of the **recursive walk** below and at a node. -/
def visit (subs : Subscriptions τ) (n : Node) : List (Event τ) :=
  subs.entering n ++ (n.childNodes.attach.flatMap fun c => subs.visit c.1) ++ subs.leaving n
termination_by n.weight
decreasing_by exact Node.weight_lt_of_mem_childNodes c.2

/-- The visit of a node has the visits of **its children** between its own events. -/
theorem visit_eq (subs : Subscriptions τ) (n : Node) :
    subs.visit n = subs.entering n ++ n.childNodes.flatMap subs.visit ++ subs.leaving n := by
  rw [visit, List.flatMap_subtype (fun _ _ => rfl), List.unattach_attach]

/-- The events of one step. -/
def eventsAt (subs : Subscriptions τ) : Step → List (Event τ)
  | .enter n => subs.entering n
  | .leave n => subs.leaving n

/-- The recursive walk makes the events of its steps. -/
theorem visit_eq_flatMap (subs : Subscriptions τ) (n : Node) :
    subs.visit n = n.steps.flatMap subs.eventsAt := by
  induction n using Node.induction_childNodes with
  | h n ih =>
      rw [visit_eq, Node.steps_eq, List.flatMap_congr ih]
      simp [eventsAt, List.flatMap_assoc]

/-! ### Calls are logged -/

/-- Listeners that log their calls are all told, in order. -/
theorem notify_logging (subs : List (Kind × τ)) (event : τ → Node → Event τ) (n : Node)
    (log : List (Event τ)) :
    notify (subs.map fun sub => (sub.1, fun n log => .ok (log ++ [event sub.2 n]))) n log =
      ⟨log ++ (subs.filter fun sub => sub.1 = n.kind).map fun sub => event sub.2 n, none⟩ := by
  induction subs generalizing log with
  | nil => simp [notify]
  | cons sub rest ih =>
      by_cases h : sub.1 = n.kind
      · simp [notify, h, ih]
      · simp [notify, h, ih]

/-- At a node that is left, **its events** are written down. -/
theorem perform_leave (subs : Subscriptions τ) (n : Node) (log : List (Event τ)) :
    subs.listeners.perform (.leave n) log = ⟨log ++ subs.leaving n, none⟩ :=
  notify_logging subs.leave .leave n log

/-- At a node that is entered, **its events** are written down, if its children are nodes. -/
theorem perform_enter (subs : Subscriptions τ) {n : Node} (h : n.HasChildNodes)
    (log : List (Event τ)) :
    subs.listeners.perform (.enter n) log = ⟨log ++ subs.entering n, none⟩ := by
  obtain ⟨children, hchildren⟩ := Node.exists_requireChildren_iff.mpr h
  simp only [Listeners.perform, listeners, notify_logging subs.enter .enter n log, hchildren]
  rfl

/-- A node with wrong children is **entered**, and then the walk ends. -/
theorem perform_enter_of_childFault? (subs : Subscriptions τ) {n : Node} {fault : Malformed}
    (h : n.childFault? = some fault) (log : List (Event τ)) :
    subs.listeners.perform (.enter n) log = ⟨log ++ subs.entering n, some fault⟩ := by
  rw [← Node.fault?_requireChildren, fault?_eq_some_iff] at h
  simp only [Listeners.perform, listeners, notify_logging subs.enter .enter n log, h]
  rfl

/-- Steps that enter no malformed node are all performed. -/
theorem performAll_eq (subs : Subscriptions τ) {steps : List Step}
    (h : ∀ k ∈ entered steps, k.HasChildNodes) (log : List (Event τ)) :
    subs.listeners.performAll steps log = ⟨log ++ steps.flatMap subs.eventsAt, none⟩ := by
  induction steps generalizing log with
  | nil => simp [Listeners.performAll]
  | cons step rest ih =>
      have hrest : ∀ k ∈ entered rest, k.HasChildNodes := fun k hk =>
        h k (mem_entered.mpr (List.mem_cons_of_mem step (mem_entered.mp hk)))
      cases step with
      | enter n =>
          have hn := h n (mem_entered.mpr List.mem_cons_self)
          simp [Listeners.performAll, perform_enter subs hn, ih hrest, eventsAt]
      | leave n => simp [Listeners.performAll, perform_leave, ih hrest, eventsAt]

/-- Steps are performed up to the first malformed node, which is still entered. -/
theorem performAll_eq_of_childFault? (subs : Subscriptions τ) {done rest : List Step} {m : Node}
    {fault : Malformed} (h : ∀ k ∈ entered done, k.HasChildNodes)
    (hm : m.childFault? = some fault) (log : List (Event τ)) :
    subs.listeners.performAll (done ++ .enter m :: rest) log =
      ⟨log ++ (done.flatMap subs.eventsAt ++ subs.entering m), some fault⟩ := by
  rw [Listeners.performAll_append, performAll_eq subs h]
  simp [Listeners.performAll, perform_enter_of_childFault? subs hm]

/-- At the end, **the last events** are written down. -/
theorem foldl_finish (subs : Subscriptions τ) (log : List (Event τ)) :
    subs.listeners.finish.foldl (fun log f => f log) log = log ++ subs.finishing := by
  simp only [listeners, finishing]
  induction subs.finish generalizing log with
  | nil => simp
  | cons tag rest ih => simp [ih]

/-! ### The events of a walk -/

/-- A node is left **at its own step** only. -/
theorem leave_mem_eventsAt {subs : Subscriptions τ} {step : Step} {tag : τ} {a : Node}
    (h : .leave tag a ∈ subs.eventsAt step) : step = .leave a := by
  cases step with
  | enter n => simp [eventsAt, entering] at h
  | leave n =>
      simp only [eventsAt, leaving, List.mem_map, Event.leave.injEq] at h
      obtain ⟨sub, -, -, rfl⟩ := h
      rfl

/-- Nothing is finished **during** a walk. -/
theorem finish_not_mem_eventsAt {subs : Subscriptions τ} {step : Step} {tag : τ} :
    .finish tag ∉ subs.eventsAt step := by
  cases step <;> simp [eventsAt, entering, leaving]

end Subscriptions

/-- Before the first malformed node is entered, no node that it is at or below is left. -/
theorem leave_not_mem_of_malformed {n m a : Node} {done rest : List Step}
    (hsteps : n.steps = done ++ .enter m :: rest) (hdone : ∀ k ∈ entered done, k.HasChildNodes)
    (hm : ¬ m.HasChildNodes) (ha : m ∈ a.preorder) : .leave a ∉ done := by
  intro hleave
  obtain ⟨earlier, later, rfl⟩ := List.append_of_mem hleave
  rw [List.append_assoc, List.cons_append] at hsteps
  -- everything at and below `a` was entered before `a` is left, and so was `m`
  have henter := enter_mem_of_leave ha hsteps
  exact hm (hdone m (mem_entered.mpr (List.mem_append_left _ henter)))

/-- **The events of a walk.** Every walk adds the same events to the log and ends with the same
fault, whatever the log holds. A root that is no node makes no events. The walk of a tree makes
the events of the recursive walk and then those of the end. Otherwise some node of the walk is
malformed, and with the first such node in pre-order, `m`, the walk ends: the nodes entered are
those of the pre-order up to `m`, the events are those of the recursive walk up to the enter
events of `m`, neither `m` nor a node above it is left, and no final listener is told. -/
theorem walk_events (subs : Subscriptions τ) (root : Root) :
    ∃ events fault,
      (∀ log, subs.listeners.walk root log = ⟨log ++ events, fault⟩) ∧
      match root with
      | .foreign type => events = [] ∧ fault = some (.foreignRoot type)
      | .node n =>
        (n.IsTree → events = subs.visit n ++ subs.finishing ∧ fault = none) ∧
        (¬ n.IsTree → ∃ before m after done rest cause,
          n.preorder = before ++ m :: after ∧ (∀ k ∈ before, k.HasChildNodes) ∧
          m.childFault? = some cause ∧ fault = some cause ∧
          n.steps = done ++ .enter m :: rest ∧ entered done = before ∧
          events = done.flatMap subs.eventsAt ++ subs.entering m ∧
          subs.visit n = events ++ rest.flatMap subs.eventsAt ∧
          (∀ a tag, m ∈ a.preorder → .leave tag a ∉ events) ∧
          ∀ tag, .finish tag ∉ events) := by
  cases root with
  | foreign type =>
      refine ⟨[], some (.foreignRoot type), fun log => ?_, rfl, rfl⟩
      rw [List.append_nil]
      rfl
  | node n =>
      by_cases htree : n.IsTree
      · refine ⟨subs.visit n ++ subs.finishing, none, fun log => ?_, fun _ => ⟨rfl, rfl⟩,
          fun h => absurd htree h⟩
        have hsteps : ∀ k ∈ entered n.steps, k.HasChildNodes := by
          rw [entered_steps]
          exact htree
        rw [Listeners.walk_node, subs.performAll_eq hsteps, ← subs.visit_eq_flatMap]
        simp only [subs.foldl_finish, List.append_assoc]
      -- the first node without a sequence of nodes for its children ends the walk
      · have hbad : ∃ k ∈ entered n.steps, ¬ k.HasChildNodes := by
          rw [entered_steps]
          simpa [Node.IsTree] using htree
        obtain ⟨done, m, rest, hsteps, hdone, hm⟩ := exists_first_malformed hbad
        obtain ⟨cause, hcause⟩ : ∃ cause, m.childFault? = some cause :=
          Option.ne_none_iff_exists'.mp (mt Node.hasChildNodes_iff.mpr hm)
        have hevents : done.flatMap subs.eventsAt ++ subs.entering m =
            (done ++ [Step.enter m]).flatMap subs.eventsAt := by
          simp [Subscriptions.eventsAt]
        refine ⟨done.flatMap subs.eventsAt ++ subs.entering m, some cause, fun log => ?_,
          fun h => absurd h htree, fun _ => ⟨entered done, m, entered rest, done, rest, cause, ?_,
            hdone, hcause, rfl, hsteps, rfl, rfl, ?_, fun a tag ha hmem => ?_, fun tag hmem => ?_⟩⟩
        · rw [Listeners.walk_node, hsteps, subs.performAll_eq_of_childFault? hdone hcause]
        · rw [← entered_steps, hsteps]
          simp [entered, Step.entered?]
        · rw [subs.visit_eq_flatMap, hsteps]
          simp [Subscriptions.eventsAt]
        · rw [hevents] at hmem
          obtain ⟨step, hstep, hevent⟩ := List.mem_flatMap.mp hmem
          obtain rfl := Subscriptions.leave_mem_eventsAt hevent
          exact leave_not_mem_of_malformed hsteps hdone hm ha (by simpa using hstep)
        · rw [hevents] at hmem
          obtain ⟨step, -, hevent⟩ := List.mem_flatMap.mp hmem
          exact Subscriptions.finish_not_mem_eventsAt hevent

end TreeLint
