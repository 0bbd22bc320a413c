import TreeLint.Proofs.Build.Agenda
import TreeLint.Proofs.Fallible

/-!
# Building by Recursion

The plain way to make the nodes of a document is a **recursion**: the children from the last to
the first, and then the node itself, with a table of what is made already so that an object that
stands in several places is made once (`NodeDocument.build`). The agenda does the same without
nesting calls (`runAgenda_openUp`). An object never stands below itself, so after its children its
own closing task still finds it unmade; this is where coherence comes in.

## Main results

* `runAgenda_openUp`: opening an object is building it by recursion and going on.
* `runAgenda_eq_build`: the agenda and the recursion have the same outcome, no look-up of a child
  fails, every reachable object is made exactly once, and the fault is that of the first object,
  in last-child-first post-order, that cannot be made.
-/

namespace TreeLint

namespace NodeDocument

/-- **Build an object by recursion**: pass over what is made already, or else build the children
from the last to the first and make the node. -/
def build (d : NodeDocument) (built : Built) : Except BuildFault Built :=
  if (built.get? d.label).isSome then .ok built
  else do
    let built ← d.children.reverse.attach.foldlM (fun built c => c.1.build built) built
    let n ← d.makeNode (built.partsOf d)
    return (d.label, n) :: built
termination_by d.weight
decreasing_by exact weight_lt_of_mem_children (List.mem_reverse.mp c.2)

/-- Build objects one after the other. -/
def buildAll (ds : List NodeDocument) (built : Built) : Except BuildFault Built :=
  ds.foldlM (fun built d => d.build built) built

/-- A list of objects is built **one after the other**. -/
theorem buildAll_cons (d : NodeDocument) (ds : List NodeDocument) (built : Built) :
    buildAll (d :: ds) built = d.build built >>= buildAll ds := List.foldlM_cons

/-- An object is built when it is not there yet: its children first, **from the last one on**, and
then its node. -/
theorem build_eq (d : NodeDocument) (built : Built) :
    d.build built =
      if (built.get? d.label).isSome then .ok built
      else do
        let built ← buildAll d.children.reverse built
        let n ← d.makeNode (built.partsOf d)
        return (d.label, n) :: built := by
  have hattach : d.children.reverse.attach.foldlM (fun built c => c.1.build built) built =
      buildAll d.children.reverse built := by
    conv_rhs => rw [← List.attach_map_subtype_val d.children.reverse, buildAll, List.foldlM_map]
  rw [build, hattach]

/-- Objects that add to the table only what is at or below them do so together. -/
theorem labels_buildAll_subset {ds : List NodeDocument} {built built' : Built}
    (hds : ∀ d ∈ ds, ∀ built built' : Built, d.build built = .ok built' →
      built'.labels ⊆ d.postOrder.map label ++ built.labels)
    (h : buildAll ds built = .ok built') :
    built'.labels ⊆ (ds.flatMap postOrder).map label ++ built.labels := by
  induction ds generalizing built with
  | nil =>
      obtain rfl := Except.ok.inj h
      exact List.Subset.refl _
  | cons d ds ih =>
      obtain ⟨built₁, hd, hrest⟩ := bind_eq_ok.mp (buildAll_cons d ds built ▸ h)
      have hfirst := hds d List.mem_cons_self built built₁ hd
      intro label hlabel
      rcases List.mem_append.mp (ih (fun e he => hds e (List.mem_cons_of_mem d he)) hrest hlabel)
        with hlater | hbefore
      · simp only [List.flatMap_cons, List.map_append, List.mem_append]
        exact .inl (.inr hlater)
      · simp only [List.flatMap_cons, List.map_append, List.mem_append]
        rcases List.mem_append.mp (hfirst hbefore) with hnew | hold
        · exact .inl (.inl hnew)
        · exact .inr hold

/-- Building adds to the table only what is **at or below** the object. -/
theorem labels_build_subset {d : NodeDocument} {built built' : Built}
    (h : d.build built = .ok built') :
    built'.labels ⊆ d.postOrder.map label ++ built.labels := by
  induction d using induction_children generalizing built built' with
  | h d ih =>
      rw [build_eq] at h
      split at h
      · obtain rfl := Except.ok.inj h
        exact List.subset_append_right _ _
      · obtain ⟨built₁, hchildren, h⟩ := bind_eq_ok.mp h
        obtain ⟨n, -, h⟩ := bind_eq_ok.mp h
        obtain rfl := Except.ok.inj h
        have hbelow := labels_buildAll_subset
          (fun c hc built built' => ih c (List.mem_reverse.mp hc)) hchildren
        rw [postOrder_eq, List.map_append]
        intro label hlabel
        rcases List.mem_cons.mp hlabel with rfl | hlabel
        · simp
        · rcases List.mem_append.mp (hbelow hlabel) with hnew | hold
          · exact List.mem_append_left _ (List.mem_append_left _ hnew)
          · exact List.mem_append_right _ hold

end NodeDocument

/-! ### The agenda follows the recursion -/

/-- Opening tasks are worked off by recursion, **one after the other**, if each of them is. -/
theorem runAgenda_openUp_append {ds : List NodeDocument}
    (hds : ∀ d ∈ ds, ∀ rest built,
      runAgenda (.openUp d :: rest) built = d.build built >>= runAgenda rest)
    (rest : List Task) (built : Built) :
    runAgenda (ds.map .openUp ++ rest) built =
      NodeDocument.buildAll ds built >>= runAgenda rest := by
  induction ds generalizing built with
  | nil => rfl
  | cons d ds ih =>
      rw [List.map_cons, List.cons_append, hds d List.mem_cons_self, NodeDocument.buildAll_cons,
        bind_assoc]
      exact bind_congr fun built₁ => ih (fun e he => hds e (List.mem_cons_of_mem d he)) built₁

/-- **Opening an object is building it by recursion** and going on with the rest. -/
theorem runAgenda_openUp {d : NodeDocument} (h : d.Coherent) (rest : List Task) (built : Built) :
    runAgenda (.openUp d :: rest) built = d.build built >>= runAgenda rest := by
  induction d using NodeDocument.induction_children generalizing rest built with
  | h d ih =>
      rw [runAgenda, NodeDocument.build_eq]
      split
      · rfl
      · next hbuilt =>
        have hchildren : ∀ c ∈ d.children.reverse, ∀ rest built,
            runAgenda (.openUp c :: rest) built = c.build built >>= runAgenda rest :=
          fun c hc => ih c (List.mem_reverse.mp hc)
            (h.of_reaches (NodeDocument.reaches_of_mem_children (List.mem_reverse.mp hc) (.refl c)))
        rw [runAgenda_openUp_append hchildren, bind_assoc]
        cases hbuild : NodeDocument.buildAll d.children.reverse built with
        | error fault => rfl
        | ok built₁ =>
            -- No child has brought in the object itself, so closing it makes its node.
            have hunmade : ¬ (built₁.get? d.label).isSome := by
              intro hmade
              have hsub := NodeDocument.labels_buildAll_subset
                (fun c _ built built' => NodeDocument.labels_build_subset) hbuild
              rcases List.mem_append.mp (hsub (Built.isSome_get?.mp hmade)) with hbelow | hbefore
              · obtain ⟨e, he, hlabel⟩ := List.mem_map.mp hbelow
                obtain ⟨c, hc, hce⟩ := List.mem_flatMap.mp he
                exact h.label_ne (List.mem_reverse.mp hc) (NodeDocument.mem_postOrder.mp hce) hlabel
              · exact hbuilt (Built.isSome_get?.mpr hbefore)
            change runAgenda (.close d :: rest) built₁ =
              (d.makeNode (built₁.partsOf d) >>= fun n => pure ((d.label, n) :: built₁)) >>=
                runAgenda rest
            rw [runAgenda, if_neg hunmade]
            cases d.makeNode (built₁.partsOf d) <;> rfl

/-- The agenda of a document ends as the recursion does. -/
theorem runAgenda_root {root : NodeDocument} (h : root.Coherent) :
    runAgenda [.openUp root] [] = root.build [] := by
  rw [runAgenda_openUp h]
  cases root.build [] with
  | error fault => rfl
  | ok built => exact runAgenda.eq_1 built

/-! ### Every object once -/

/-- If the recursion succeeds, the agenda makes the objects of the schedule, in this order. -/
theorem turns_of_build_ok {root : NodeDocument} (h : root.Coherent) {built : Built}
    (hbuild : root.build [] = .ok built) : Turns [.openUp root] [] root.schedule [] built := by
  obtain ⟨made, hturns⟩ := exists_turns_of_ok ((runAgenda_root h).trans hbuild)
  have hmade := (progress_of_turns h hturns).schedule
  rw [List.flatMap_nil, firstUses, List.append_nil] at hmade
  rwa [hmade]

/-- If the recursion succeeds, **every reachable object has its node**, and all that use the object
use this node. -/
theorem exists_node_of_build_ok {root : NodeDocument} (h : root.Coherent) {built : Built}
    (hbuild : root.build [] = .ok built) {d : NodeDocument} (hd : root.Reaches d) :
    ∃ n, built.get? d.label = some n ∧ d.makeNode (built.partsOf d) = .ok n := by
  have hturns := turns_of_build_ok h hbuild
  have hlabel : d.label ∈ built.labels :=
    hturns.mem_labels.mpr (.inr ⟨d, (NodeDocument.mem_schedule h).mpr hd, rfl⟩)
  obtain ⟨n, hn⟩ := Option.isSome_iff_exists.mp (Built.isSome_get?.mpr hlabel)
  exact ⟨n, hn, (progress_of_turns h hturns).node d n hd hn⟩

/-- If the recursion fails, the agenda makes the objects of the schedule **up to the first that
cannot be made**. -/
theorem turns_of_build_error {root : NodeDocument} (h : root.Coherent) {fault : BuildFault}
    (hbuild : root.build [] = .error fault) :
    ∃ before d after rest built, root.schedule = before ++ d :: after ∧
      Turns [.openUp root] [] before (.close d :: rest) built ∧
      d.makeNode (built.partsOf d) = .error fault := by
  obtain ⟨made, d, rest, built, hturns, hd, hfault⟩ :=
    exists_turns_of_error ((runAgenda_root h).trans hbuild)
  have hmade := (progress_of_turns h hturns).schedule
  rw [List.flatMap_cons, Task.remaining, List.singleton_append, firstUses, if_neg hd] at hmade
  exact ⟨made, d, _, rest, built, hmade, hturns, hfault⟩

/-- **The agenda is the recursion.** In a document in which a label stands for one object, every
turn leaves less to do and no look-up of a child fails; the outcome is that of building by
recursion. If it is a table, every reachable object was made exactly once and has one node, and the
root's node is the tree. If it is a fault, it is that of the first object that cannot be made. -/
theorem runAgenda_eq_build {root : NodeDocument} (h : root.Coherent) :
    (∀ agenda built made agenda' built', Turn agenda built made agenda' built' →
      agendaWeight agenda' < agendaWeight agenda) ∧
    (∀ made d rest built, Turns [.openUp root] [] made (.close d :: rest) built →
      ∀ c ∈ d.children, (built.get? c.label).isSome) ∧
    (root.schedule.Nodup ∧ ∀ d, d ∈ root.schedule ↔ root.Reaches d) ∧
    runAgenda [.openUp root] [] = root.build [] ∧
    (∀ built, root.build [] = .ok built →
      Turns [.openUp root] [] root.schedule [] built ∧
      (∀ d, root.Reaches d →
        ∃ n, built.get? d.label = some n ∧ d.makeNode (built.partsOf d) = .ok n) ∧
      ∀ document : Document, document.node? = some root →
        ∃ n, built.get? root.label = some n ∧ Node.ofDocument document = .ok n) ∧
    ∀ fault, root.build [] = .error fault →
      (∃ before d after rest built, root.schedule = before ++ d :: after ∧
        Turns [.openUp root] [] before (.close d :: rest) built ∧
        d.makeNode (built.partsOf d) = .error fault) ∧
      ∀ document : Document, document.node? = some root →
        Node.ofDocument document = .error fault := by
  refine ⟨fun _ _ _ _ _ t => t.agendaWeight_lt,
    fun _ _ _ _ hturns => (progress_of_turns h hturns).isSome_get?_children,
    ⟨root.nodup_schedule, fun d => NodeDocument.mem_schedule h⟩, runAgenda_root h, ?_, ?_⟩
  · intro built hbuild
    refine ⟨turns_of_build_ok h hbuild, fun d hd => exists_node_of_build_ok h hbuild hd, ?_⟩
    intro document hroot
    obtain ⟨n, hn, -⟩ := exists_node_of_build_ok h hbuild (.refl root)
    refine ⟨n, hn, ?_⟩
    simp only [Node.ofDocument, hroot, runAgenda_root h, hbuild, hn]
  · intro fault hbuild
    refine ⟨turns_of_build_error h hbuild, fun document hroot => ?_⟩
    simp only [Node.ofDocument, hroot, runAgenda_root h, hbuild]

/-- An identifier, as an operand. -/
def operand : NodeDocument :=
  ⟨1, "Identifier", [("type", .str "Identifier"), ("name", .str "x")]⟩

/-- An expression whose two operands are **one and the same object**. -/
def sharedOperand : NodeDocument where
  label := 0
  type := "BinaryExpression"
  members := [("type", .str "BinaryExpression"), ("left", .obj operand.label operand.members),
    ("right", .obj operand.label operand.members)]

/-- An operand that is used twice is **listed twice**. -/
theorem postOrder_sharedOperand :
    sharedOperand.postOrder = [operand, operand, sharedOperand] := by
  have hchildren : sharedOperand.children = [operand, operand] := rfl
  have hoperand : operand.postOrder = [operand] := by
    rw [NodeDocument.postOrder_eq]
    rfl
  rw [NodeDocument.postOrder_eq, hchildren]
  simp [hoperand]

/-- And its two uses have **one label** for one object. -/
theorem coherent_sharedOperand : sharedOperand.Coherent := by
  intro d e hd he hlabel
  rw [← NodeDocument.mem_postOrder, postOrder_sharedOperand] at hd he
  simp only [List.mem_cons, List.not_mem_nil, or_false, or_self_left] at hd he
  rcases hd with rfl | rfl <;> rcases he with rfl | rfl
  · rfl
  · exact nomatch hlabel
  · exact nomatch hlabel
  · rfl

/-- The shared operand is made once, before the expression. -/
theorem runAgenda_sharedOperand :
    sharedOperand.Coherent ∧ sharedOperand.schedule = [operand, sharedOperand] ∧
      ∃ built, runAgenda [.openUp sharedOperand] [] = .ok built ∧
        Turns [.openUp sharedOperand] [] [operand, sharedOperand] [] built := by
  have hschedule : sharedOperand.schedule = [operand, sharedOperand] := by
    rw [NodeDocument.schedule, postOrder_sharedOperand]
    rfl
  obtain ⟨-, -, -, hrun, hok, -⟩ := runAgenda_eq_build coherent_sharedOperand
  have hisOk : (sharedOperand.build []).isOk := by decide +kernel
  refine ⟨coherent_sharedOperand, hschedule, ?_⟩
  cases hbuild : sharedOperand.build [] with
  | error fault =>
      rw [hbuild] at hisOk
      exact absurd hisOk Bool.false_ne_true
  | ok built => exact ⟨built, hrun.trans hbuild, hschedule ▸ (hok built hbuild).1⟩

end TreeLint
