import TreeLint.Proofs.Build.Objects
import TreeLint.Tree.Build

/-!
# The Agenda at Work

`runAgenda` makes the nodes of a document in turns: each turn takes one task from the agenda.
`Turn` says what a turn can do and which object, if any, it makes the node of, and `Turns` puts
turns together. All that holds of the states in between is in one invariant (`Progress`), which
one turn preserves and which therefore holds after any number of turns.

The invariant rests on reading an agenda as a list of objects: a closing task stands for its
object and an opening task for the **whole post-order** at and below its object
(`Task.remaining`). Opening a node replaces a task by tasks that stand for the same objects, so
what has been made, and after it what the agenda stands for without the objects that are made
already, is the schedule at all times.

## Main results

* `Turn.agendaWeight_lt`: a turn leaves less to do.
* `exists_turns_of_ok`, `exists_turns_of_error`: the turns that `runAgenda` takes to its end.
* `Progress.turn` and `progress_of_turns`: a turn preserves the invariant, and so do many.
* `Progress.isSome_get?_children`: a node is made when all its children are made.
-/

namespace TreeLint

/-! ### The table of made nodes -/

namespace Built

/-- The labels of the objects that are made. -/
def labels (built : Built) : List ℕ := built.map Prod.fst

/-- The table has a node for exactly the labels that **it lists**. -/
theorem isSome_get? {built : Built} {label : ℕ} :
    (built.get? label).isSome ↔ label ∈ built.labels := by
  induction built with
  | nil => simp [get?, labels]
  | cons entry rest ih =>
      obtain ⟨l, n⟩ := entry
      by_cases h : l = label
      · simp [get?, labels, h]
      · simp only [get?, if_neg h, ih, labels, List.map_cons, List.mem_cons]
        exact ⟨.inr, fun hmem => hmem.resolve_left fun heq => h heq.symm⟩

/-- A new entry is found under its own label. -/
theorem get?_cons_self (label : ℕ) (n : Node) (built : Built) :
    get? ((label, n) :: built) label = some n :=
  if_pos rfl

/-- A new entry leaves the others as they are. -/
theorem get?_cons_of_ne {label l : ℕ} (h : l ≠ label) (n : Node) (built : Built) :
    get? ((l, n) :: built) label = built.get? label :=
  if_neg h

/-- The made parts depend only on what is found for the children. -/
theorem partsOf_congr {built built' : Built} {d : NodeDocument}
    (h : ∀ c ∈ d.children, built.get? c.label = built'.get? c.label) :
    built.partsOf d = built'.partsOf d := by
  refine List.filterMap_congr fun entry hentry => ?_
  obtain ⟨key, part⟩ := entry
  have hpart : ∀ c ∈ part.toList, built.get? c.label = built'.get? c.label := fun c hc =>
    h c (List.mem_flatMap.mpr ⟨(key, part), hentry, hc⟩)
  cases part with
  | one c => simp [Part.filterMap, hpart c (by simp [Part.toList])]
  | many cs =>
      have hcs : ∀ c ∈ cs, built.get? c.label = built'.get? c.label := hpart
      simp only [Part.filterMap]
      rw [List.filterMap_congr hcs]

end Built

/-! ### Turns -/

/-- The object of a task. -/
def Task.document : Task → NodeDocument
  | .openUp d => d
  | .close d => d

/-- One **turn**, from an agenda and a table to the next ones, with the objects whose nodes it
makes. -/
inductive Turn : List Task → Built → List NodeDocument → List Task → Built → Prop
  /-- An object that is made already is passed over. -/
  | pass {task : Task} {rest : List Task} {built : Built}
      (h : task.document.label ∈ built.labels) : Turn (task :: rest) built [] rest built
  | expand {d : NodeDocument} {rest : List Task} {built : Built} (h : d.label ∉ built.labels) :
      Turn (.openUp d :: rest) built [] (d.children.reverse.map .openUp ++ .close d :: rest) built
  | make {d : NodeDocument} {rest : List Task} {built : Built} {n : Node}
      (h : d.label ∉ built.labels) (hn : d.makeNode (built.partsOf d) = .ok n) :
      Turn (.close d :: rest) built [d] rest ((d.label, n) :: built)

/-- Any number of turns, with the objects whose nodes they make, in order. -/
inductive Turns : List Task → Built → List NodeDocument → List Task → Built → Prop
  | refl (agenda : List Task) (built : Built) : Turns agenda built [] agenda built
  | head {agenda agenda' agenda'' : List Task} {built built' built'' : Built}
      {made made' : List NodeDocument} (h : Turn agenda built made agenda' built')
      (hs : Turns agenda' built' made' agenda'' built'') :
      Turns agenda built (made ++ made') agenda'' built''

/-- A turn does not change what becomes of the agenda. -/
theorem Turn.runAgenda_eq {agenda agenda' : List Task} {built built' : Built}
    {made : List NodeDocument} (h : Turn agenda built made agenda' built') :
    runAgenda agenda built = runAgenda agenda' built' := by
  cases h with
  | @pass task rest built h =>
      have hbuilt := Built.isSome_get?.mpr h
      cases task with
      | openUp d =>
          rw [runAgenda]
          exact if_pos hbuilt
      | close d =>
          rw [runAgenda]
          exact if_pos hbuilt
  | expand h =>
      rw [runAgenda, if_neg fun hbuilt => h (Built.isSome_get?.mp hbuilt)]
  | make h hn =>
      rw [runAgenda, if_neg fun hbuilt => h (Built.isSome_get?.mp hbuilt)]
      simp only [hn]

/-- A turn leaves **less to do**, so no document keeps the agenda going for ever. -/
theorem Turn.agendaWeight_lt {agenda agenda' : List Task} {built built' : Built}
    {made : List NodeDocument} (h : Turn agenda built made agenda' built') :
    agendaWeight agenda' < agendaWeight agenda := by
  have htask : ∀ task : Task, 0 < task.weight := by
    rintro (d | d)
    · simp only [Task.weight, NodeDocument.weight]
      omega
    · exact Nat.one_pos
  cases h with
  | @pass task => exact Nat.lt_add_of_pos_left (htask task)
  | @expand d rest => exact agendaWeight_openUp_lt d rest
  | @make d => exact Nat.lt_add_of_pos_left (htask (.close d))

/-- Any number of turns do **not change** what becomes of the agenda. -/
theorem Turns.runAgenda_eq {agenda agenda' : List Task} {built built' : Built}
    {made : List NodeDocument} (h : Turns agenda built made agenda' built') :
    runAgenda agenda built = runAgenda agenda' built' := by
  induction h with
  | refl => rfl
  | head h _ ih => rw [h.runAgenda_eq, ih]

/-- What turns make is in the table afterwards. -/
theorem Turns.mem_labels {agenda agenda' : List Task} {built built' : Built}
    {made : List NodeDocument} (h : Turns agenda built made agenda' built') {label : ℕ} :
    label ∈ built'.labels ↔ label ∈ built.labels ∨ ∃ d ∈ made, d.label = label := by
  induction h with
  | refl => simp
  | head h _ ih =>
      rw [ih]
      cases h with
      | pass => simp
      | expand => simp
      | make => simp [Built.labels, or_assoc, or_left_comm, eq_comm]

/-! ### The turns to the end -/

/-- A run that comes to its end takes turns until the agenda is empty. -/
theorem exists_turns_of_ok {agenda : List Task} {built built' : Built}
    (h : runAgenda agenda built = .ok built') : ∃ made, Turns agenda built made [] built' := by
  fun_induction runAgenda agenda built with
  | case1 built =>
      obtain rfl := Except.ok.inj h
      exact ⟨[], .refl _ _⟩
  | case2 built d rest hbuilt ih =>
      obtain ⟨made, hturns⟩ := ih h
      exact ⟨_, .head (.pass (Built.isSome_get?.mp hbuilt)) hturns⟩
  | case3 built d rest hbuilt ih =>
      obtain ⟨made, hturns⟩ := ih h
      exact ⟨_, .head (.expand fun hd => hbuilt (Built.isSome_get?.mpr hd)) hturns⟩
  | case4 built d rest hbuilt ih =>
      obtain ⟨made, hturns⟩ := ih h
      exact ⟨_, .head (.pass (Built.isSome_get?.mp hbuilt)) hturns⟩
  | case5 => exact nomatch h
  | case6 built d rest hbuilt n hn ih =>
      obtain ⟨made, hturns⟩ := ih h
      exact ⟨_, .head (.make (fun hd => hbuilt (Built.isSome_get?.mpr hd)) hn) hturns⟩

/-- A run that fails takes turns until a node **cannot be made**, and fails with its fault. -/
theorem exists_turns_of_error {agenda : List Task} {built : Built} {fault : BuildFault}
    (h : runAgenda agenda built = .error fault) :
    ∃ made d rest built', Turns agenda built made (.close d :: rest) built' ∧
      d.label ∉ built'.labels ∧ d.makeNode (built'.partsOf d) = .error fault := by
  fun_induction runAgenda agenda built with
  | case1 => exact nomatch h
  | case2 built d rest hbuilt ih =>
      obtain ⟨made, e, rest', built', hturns, he⟩ := ih h
      exact ⟨_, e, rest', built', .head (.pass (Built.isSome_get?.mp hbuilt)) hturns, he⟩
  | case3 built d rest hbuilt ih =>
      obtain ⟨made, e, rest', built', hturns, he⟩ := ih h
      exact ⟨_, e, rest', built',
        .head (.expand fun hd => hbuilt (Built.isSome_get?.mpr hd)) hturns, he⟩
  | case4 built d rest hbuilt ih =>
      obtain ⟨made, e, rest', built', hturns, he⟩ := ih h
      exact ⟨_, e, rest', built', .head (.pass (Built.isSome_get?.mp hbuilt)) hturns, he⟩
  | case5 built d rest hbuilt fault' hfault =>
      obtain rfl := Except.error.inj h
      exact ⟨_, d, rest, built, .refl _ _, fun hd => hbuilt (Built.isSome_get?.mpr hd), hfault⟩
  | case6 built d rest hbuilt n hn ih =>
      obtain ⟨made, e, rest', built', hturns, he⟩ := ih h
      exact ⟨_, e, rest', built',
        .head (.make (fun hd => hbuilt (Built.isSome_get?.mpr hd)) hn) hturns, he⟩

/-! ### What an agenda stands for -/

/-- Opening a node brings only reachable objects onto the agenda. -/
theorem reachable_expand {root d : NodeDocument} {rest : List Task}
    (h : ∀ task ∈ Task.openUp d :: rest, root.Reaches task.document) :
    ∀ task ∈ d.children.reverse.map Task.openUp ++ Task.close d :: rest,
      root.Reaches task.document := by
  have hd := h (.openUp d) List.mem_cons_self
  intro task htask
  rcases List.mem_append.mp htask with hchild | hrest
  · obtain ⟨c, hc, rfl⟩ := List.mem_map.mp hchild
    exact hd.child (List.mem_reverse.mp hc)
  · rcases List.mem_cons.mp hrest with rfl | hrest
    · exact hd
    · exact h task (List.mem_cons_of_mem _ hrest)

/-- The objects that a task stands for. -/
def Task.remaining : Task → List NodeDocument
  | .openUp d => d.postOrder
  | .close d => [d]

/-- Opening a node leaves the objects that the agenda stands for as they are. -/
theorem remaining_expand (d : NodeDocument) (rest : List Task) :
    (d.children.reverse.map Task.openUp ++ Task.close d :: rest).flatMap Task.remaining =
      (Task.openUp d :: rest).flatMap Task.remaining := by
  have hchildren : (d.children.reverse.map Task.openUp).flatMap Task.remaining =
      d.children.reverse.flatMap NodeDocument.postOrder := by
    rw [List.flatMap_map]
    rfl
  rw [List.flatMap_append, hchildren, List.flatMap_cons, List.flatMap_cons, Task.remaining,
    Task.remaining, NodeDocument.postOrder_eq, List.append_assoc]

/-- Labels **supply** an agenda if the children of every object that is to be closed are among
them or have their turn earlier. -/
def Supplies : List ℕ → List Task → Prop
  | _, [] => True
  | labels, .openUp d :: rest => Supplies (d.label :: labels) rest
  | labels, .close d :: rest =>
    (∀ c ∈ d.children, c.label ∈ labels) ∧ Supplies (d.label :: labels) rest

/-- More labels supply **as much**. -/
theorem Supplies.mono {labels labels' : List ℕ} {agenda : List Task} (h : Supplies labels agenda)
    (hsub : labels ⊆ labels') : Supplies labels' agenda := by
  induction agenda generalizing labels labels' with
  | nil => trivial
  | cons task rest ih =>
      cases task with
      | openUp d => exact ih h (List.cons_subset_cons _ hsub)
      | close d => exact ⟨fun c hc => hsub (h.1 c hc), ih h.2 (List.cons_subset_cons _ hsub)⟩

/-- When a task is done, its own label **supplies the rest**. -/
theorem Supplies.rest {labels : List ℕ} {task : Task} {rest : List Task}
    (h : Supplies labels (task :: rest)) : Supplies (task.document.label :: labels) rest := by
  cases task with
  | openUp d => exact h
  | close d => exact h.2

/-- Opening tasks in front of an agenda supply it with their objects. -/
theorem supplies_openUp_append {labels : List ℕ} {ds : List NodeDocument} {rest : List Task}
    (h : Supplies (ds.reverse.map NodeDocument.label ++ labels) rest) :
    Supplies labels (ds.map .openUp ++ rest) := by
  induction ds generalizing labels with
  | nil => exact h
  | cons d ds ih =>
      rw [List.reverse_cons, List.map_append, List.append_assoc] at h
      exact ih h

/-- An agenda is still supplied when a task is opened up: the children come **before the closing**.
-/
theorem Supplies.expand {labels : List ℕ} {d : NodeDocument} {rest : List Task}
    (h : Supplies labels (.openUp d :: rest)) :
    Supplies labels (d.children.reverse.map .openUp ++ .close d :: rest) := by
  refine supplies_openUp_append ⟨fun c hc => ?_, Supplies.mono h ?_⟩
  · rw [List.reverse_reverse]
    exact List.mem_append_left _ (List.mem_map_of_mem hc)
  · exact List.cons_subset_cons _ (List.subset_append_right _ _)

/-! ### What holds after every turn -/

/-- How far the work on a document has come. -/
structure Progress (root : NodeDocument) (made : List NodeDocument) (agenda : List Task)
    (built : Built) : Prop where
  reachable : ∀ task ∈ agenda, root.Reaches task.document
  supplied : Supplies built.labels agenda
  /-- With an object all its children are made. -/
  closed : ∀ d, root.Reaches d → d.label ∈ built.labels →
    ∀ c ∈ d.children, c.label ∈ built.labels
  /-- A made node is the one that the table, as it is now, gives for its object. -/
  node : ∀ d n, root.Reaches d → built.get? d.label = some n →
    d.makeNode (built.partsOf d) = .ok n
  schedule : root.schedule = made ++ firstUses built.labels (agenda.flatMap Task.remaining)

/-- At the start nothing is made, and the **whole schedule** lies ahead. -/
theorem progress_start (root : NodeDocument) : Progress root [] [.openUp root] [] where
  reachable := by simp [Task.document, NodeDocument.Reaches.refl]
  supplied := trivial
  closed := by simp [Built.labels]
  node := by simp [Built.get?]
  schedule := by simp [NodeDocument.schedule, Built.labels, Task.remaining]

namespace Progress

variable {root : NodeDocument} {made new : List NodeDocument} {agenda agenda' : List Task}
  {built built' : Built}

/-- With an object everything below it is made. -/
theorem mem_labels_of_reaches (p : Progress root made agenda built) {d e : NodeDocument}
    (hd : root.Reaches d) (hlabel : d.label ∈ built.labels) (he : d.Reaches e) :
    e.label ∈ built.labels := by
  induction he with
  | refl => exact hlabel
  | tail hde hc ih => exact p.closed _ (hd.trans hde) ih _ hc

/-- A node is made when **all its children are made**. -/
theorem isSome_get?_children {d : NodeDocument} {rest : List Task}
    (p : Progress root made (.close d :: rest) built) :
    ∀ c ∈ d.children, (built.get? c.label).isSome :=
  fun c hc => Built.isSome_get?.mpr (p.supplied.1 c hc)

/-- A task is passed over **without loss** when its object is made already. -/
theorem pass {task : Task} {rest : List Task} (p : Progress root made (task :: rest) built)
    (h : task.document.label ∈ built.labels) : Progress root made rest built where
  reachable t ht := p.reachable t (List.mem_cons_of_mem task ht)
  supplied := p.supplied.rest.mono (List.cons_subset.mpr ⟨h, List.Subset.refl _⟩)
  closed := p.closed
  node := p.node
  schedule := by
    have hseen : ∀ e ∈ task.remaining, e.label ∈ built.labels := by
      intro e he
      have htask := p.reachable task List.mem_cons_self
      cases task with
      | openUp d => exact p.mem_labels_of_reaches htask h (NodeDocument.mem_postOrder.mp he)
      | close d => rwa [List.mem_singleton.mp he]
    rw [p.schedule, List.flatMap_cons, firstUses_append_of_seen hseen]

/-- Opening an object up keeps **all that holds**; only the agenda changes. -/
theorem expand {d : NodeDocument} {rest : List Task}
    (p : Progress root made (.openUp d :: rest) built) :
    Progress root made (d.children.reverse.map .openUp ++ .close d :: rest) built where
  reachable := reachable_expand p.reachable
  supplied := p.supplied.expand
  closed := p.closed
  node := p.node
  schedule := by rw [p.schedule, remaining_expand]

/-- The new entry changes no look-up of a child: neither of the new object, which does not stand
below itself, nor of an object that was made before, whose children were too. -/
theorem get?_children_cons {d e c : NodeDocument} {rest : List Task} {n : Node}
    (h : root.Coherent) (p : Progress root made (.close d :: rest) built)
    (hd : d.label ∉ built.labels) (he : root.Reaches e) (hlabel : e.label ∈ d.label :: built.labels)
    (hc : c ∈ e.children) : Built.get? ((d.label, n) :: built) c.label = built.get? c.label := by
  have hroot : root.Reaches d := p.reachable _ List.mem_cons_self
  refine Built.get?_cons_of_ne (fun heq => ?_) n built
  rcases List.mem_cons.mp hlabel with hed | hmade
  · obtain rfl := h e d he hroot hed
    exact (h.of_reaches he).label_ne hc (.refl c) heq.symm
  · exact hd (heq ▸ p.closed e he hmade c hc)

/-- Making a node adds its object to what is made, **next on the schedule**. -/
theorem make {d : NodeDocument} {rest : List Task} {n : Node} (h : root.Coherent)
    (p : Progress root made (.close d :: rest) built) (hd : d.label ∉ built.labels)
    (hn : d.makeNode (built.partsOf d) = .ok n) :
    Progress root (made ++ [d]) rest ((d.label, n) :: built) where
  reachable t ht := p.reachable t (List.mem_cons_of_mem _ ht)
  supplied := p.supplied.2
  closed := by
    intro e he hlabel c hc
    rcases List.mem_cons.mp hlabel with hed | hmade
    · obtain rfl := h e d he (p.reachable _ List.mem_cons_self) hed
      exact List.mem_cons_of_mem _ (p.supplied.1 c hc)
    · exact List.mem_cons_of_mem _ (p.closed e he hmade c hc)
  node := by
    intro e m he hget
    have hlabel : e.label ∈ d.label :: built.labels :=
      Built.isSome_get?.mp (Option.isSome_of_eq_some hget)
    rw [Built.partsOf_congr fun c hc => get?_children_cons h p hd he hlabel hc]
    by_cases hed : d.label = e.label
    · obtain rfl := h d e (p.reachable _ List.mem_cons_self) he hed
      rw [Built.get?_cons_self] at hget
      rwa [← Option.some.inj hget]
    · rw [Built.get?_cons_of_ne hed] at hget
      exact p.node e m he hget
  schedule := by
    rw [p.schedule, List.flatMap_cons, Task.remaining, List.singleton_append, firstUses,
      if_neg hd, List.append_assoc]
    rfl

/-- **One turn** preserves the invariant and adds the object that it makes. -/
theorem turn (h : root.Coherent) (p : Progress root made agenda built)
    (t : Turn agenda built new agenda' built') : Progress root (made ++ new) agenda' built' := by
  cases t with
  | pass hmade => rw [List.append_nil]; exact p.pass hmade
  | expand => rw [List.append_nil]; exact p.expand
  | make hd hn => exact p.make h hd hn

/-- What holds before turns holds **after them**. -/
theorem turns (h : root.Coherent) (p : Progress root made agenda built)
    (ts : Turns agenda built new agenda' built') : Progress root (made ++ new) agenda' built' := by
  induction ts generalizing made with
  | refl => rwa [List.append_nil]
  | head t _ ih =>
      rw [← List.append_assoc]
      exact ih (p.turn h t)

end Progress

/-- The invariant holds after **any number of turns** from the start. -/
theorem progress_of_turns {root : NodeDocument} {made : List NodeDocument} {agenda : List Task}
    {built : Built} (h : root.Coherent) (ts : Turns [.openUp root] [] made agenda built) :
    Progress root made agenda built :=
  (progress_start root).turns h ts

end TreeLint
