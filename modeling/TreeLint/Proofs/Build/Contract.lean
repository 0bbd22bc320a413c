import TreeLint.Proofs.Build.Agenda
import TreeLint.Proofs.Fallible
import TreeLint.Proofs.Sorting.Permutation
import TreeLint.Proofs.Walk.Steps

/-!
# The Contract of Built Trees

A tree that is put together by hand may lack what its kinds promise, and rules refuse such a node
when they come to it. A tree **built from a document** never does: each node is looked at when it
is made, so every node keeps the contract (`Node.Sound`): the root and all that it leads to when
parts and children are followed (`Node.Throughout`).

The argument does not depend on the contract. Whatever holds of every node that can be made of a
reachable object holds throughout the built tree (`throughout_of_ofDocument`), for any document at
all, since a node refers only to nodes that were made before it or to what these refer to.

## Main results

* `made_of_makeNode`: what is known of a node that has been made.
* `throughout_of_ofDocument`: what holds of each made node holds throughout the tree.
* `sound_of_makeNode`: a node that has been made keeps the contract.
-/

namespace TreeLint

/-! ### References -/

namespace Node

/-- All nodes that a node refers to: its parts and its children. -/
def referents (n : Node) : List Node :=
  n.id.toList ++ n.body ++ n.params ++ n.arguments ++ n.callee.toList ++ n.receiver.toList ++
    n.member.toList ++ n.value.toList ++ n.childNodes

/-- A node **leads to** itself and to everything that one gets to by references. -/
def LeadsTo : Node → Node → Prop := Relation.ReflTransGen fun a b => b ∈ a.referents

/-- A property holds **throughout** a tree if it holds of everything that the root leads to. -/
def Throughout (P : Node → Prop) (n : Node) : Prop := ∀ m, n.LeadsTo m → P m

variable {P : Node → Prop}

/-- What holds throughout a node holds **of the node**. -/
theorem Throughout.self {n : Node} (h : n.Throughout P) : P n := h n .refl

/-- What holds throughout a node holds throughout **whatever it leads to**. -/
theorem Throughout.of_leadsTo {n m : Node} (h : n.Throughout P) (hm : n.LeadsTo m) :
    m.Throughout P :=
  fun k hk => h k (hm.trans hk)

/-- What holds throughout a node holds throughout the nodes **it refers to**. -/
theorem Throughout.referent {n m : Node} (h : n.Throughout P) (hm : m ∈ n.referents) :
    m.Throughout P :=
  h.of_leadsTo (.single hm)

/-- A property holds throughout a node if it holds of it and **throughout its referents**. -/
theorem Throughout.of_referents {n : Node} (hn : P n)
    (h : ∀ m ∈ n.referents, m.Throughout P) : n.Throughout P := by
  intro m hm
  rcases Relation.ReflTransGen.cases_head hm with rfl | ⟨k, hk, hkm⟩
  · exact hn
  · exact h k hk m hkm

end Node

/-! ### One made node -/

namespace Parts

/-- The nodes of all parts. -/
def nodes (parts : Parts) : List Node := parts.flatMap fun part => part.2.toList

/-- Nodes under a key are **among the parts**. -/
theorem mem_nodes_of_lookup? {parts : Parts} {key : String} {part : Part Node}
    (h : lookup? key parts = some part) {n : Node} (hn : n ∈ part.toList) : n ∈ parts.nodes := by
  induction parts with
  | nil => exact nomatch h
  | cons entry rest ih =>
      obtain ⟨k, p⟩ := entry
      rw [nodes, List.flatMap_cons, List.mem_append]
      rw [lookup?] at h
      split at h
      · exact .inl (Option.some.inj h ▸ hn)
      · exact .inr (ih h)

/-- The single node under a key is **among the parts**. -/
theorem mem_nodes_of_single? {parts : Parts} {key : String} {n : Node}
    (h : parts.single? key = some n) : n ∈ parts.nodes := by
  rw [single?] at h
  cases hpart : lookup? key parts with
  | none =>
      rw [hpart] at h
      exact nomatch h
  | some part =>
      rw [hpart] at h
      cases part with
      | one m =>
          obtain rfl := Option.some.inj h
          exact mem_nodes_of_lookup? hpart List.mem_cons_self
      | many ms => exact nomatch h

/-- The nodes of a list under a key are **among the parts**. -/
theorem mem_nodes_of_many {parts : Parts} {key : String} {n : Node} (h : n ∈ parts.many key) :
    n ∈ parts.nodes := by
  rw [many] at h
  split at h
  · next part hpart => exact mem_nodes_of_lookup? hpart h
  · exact nomatch h

end Parts

namespace NodeDocument

/-- What is known of the node that is **made** of a document and its parts. -/
structure Made (d : NodeDocument) (parts : Parts) (n : Node) : Prop where
  label : n.label = d.label
  kind : n.kind = d.kind
  name : d.nameWith parts = .ok n.name
  methodKind : n.methodKind = if d.kind == .methodDefinition then (d.getD "kind").erase else .null
  modifiers : n.modifiers = d.modifiers
  span : n.span = d.span
  id : n.id = parts.single? "id"
  body : n.body = d.bodyWith parts
  params : n.params = parts.many "params"
  arguments : d.argumentsWith parts = .ok n.arguments
  callee : d.calleeWith parts = .ok n.callee
  receiver : n.receiver = parts.single? "object"
  member : d.memberWith parts = .ok n.member
  value : n.value = (parts.single? "value").or (parts.single? "initializer")
  children : ∃ children, sourceOrder parts.nodes = .ok children ∧
    n.children = .sequence (children.map .node)

/-- A node that is made is made **as the specification says**. -/
theorem made_of_makeNode {d : NodeDocument} {parts : Parts} {n : Node}
    (h : d.makeNode parts = .ok n) : d.Made parts n := by
  obtain ⟨name, hname, h⟩ := bind_eq_ok.mp h
  obtain ⟨arguments, harguments, h⟩ := bind_eq_ok.mp h
  obtain ⟨callee, hcallee, h⟩ := bind_eq_ok.mp h
  obtain ⟨member, hmember, h⟩ := bind_eq_ok.mp h
  obtain ⟨children, hchildren, h⟩ := bind_eq_ok.mp h
  obtain rfl := Except.ok.inj h
  exact ⟨rfl, rfl, mapError_eq_ok.mp hname, rfl, rfl, rfl, rfl, rfl, rfl,
    mapError_eq_ok.mp harguments, mapError_eq_ok.mp hcallee, rfl, mapError_eq_ok.mp hmember, rfl,
    children, mapError_eq_ok.mp hchildren, rfl⟩

/-- Where arguments are accepted, they are the parts **under their key**. -/
theorem argumentsWith_eq_ok {d : NodeDocument} {parts : Parts} {arguments : List Node}
    (h : d.argumentsWith parts = .ok arguments) : arguments = parts.many "arguments" := by
  rw [argumentsWith] at h
  split at h
  · exact (Except.ok.inj h).symm
  · exact nomatch h
  · exact (Except.ok.inj h).symm

/-- A call or `new` expression is not made without its callee. -/
theorem calleeWith_eq_ok {d : NodeDocument} {parts : Parts} {callee : Option Node}
    (h : d.calleeWith parts = .ok callee) :
    callee = parts.single? "callee" ∧ (d.kind.isInvocation → callee.isSome) := by
  rw [calleeWith] at h
  split at h
  · exact nomatch h
  · next hcallee =>
    obtain rfl := Except.ok.inj h
    refine ⟨rfl, fun hinvocation => ?_⟩
    rw [Option.isSome_iff_ne_none]
    exact hcallee hinvocation

/-- A member expression is not made without its object and its property. -/
theorem memberWith_eq_ok {d : NodeDocument} {parts : Parts} {member : Option Node}
    (h : d.memberWith parts = .ok member) :
    member = parts.single? "property" ∧
      (d.kind = .memberExpression → member.isSome ∧ (parts.single? "object").isSome) := by
  simp only [memberWith] at h
  split at h
  · exact nomatch h
  · next hmember =>
    obtain rfl := Except.ok.inj h
    refine ⟨rfl, fun hkind => ?_⟩
    simpa [hkind, Option.isSome_iff_ne_none] using hmember

/-- The body of a node is made of parts, or of what the body of a part is made of. -/
theorem mem_bodyWith {d : NodeDocument} {parts : Parts} {m : Node} (h : m ∈ d.bodyWith parts) :
    m ∈ parts.nodes ∨ ∃ c ∈ parts.nodes, m ∈ c.body := by
  rw [bodyWith] at h
  split at h
  · split at h
    · next classBody hbody => exact .inr ⟨classBody, Parts.mem_nodes_of_single? hbody, h⟩
    · exact nomatch h
  · exact .inl (Parts.mem_nodes_of_many h)

/-- Source order loses no child and adds none. -/
theorem perm_of_sourceOrder {children ordered : List Node}
    (h : sourceOrder children = .ok ordered) : ordered.Perm children := by
  rw [sourceOrder] at h
  split at h
  · exact perm_of_sortBy? h
  · rw [Except.ok.inj h]

namespace Made

variable {d : NodeDocument} {parts : Parts} {n : Node}

/-- The children of a made node are the **nodes of its parts**, in some order. -/
theorem exists_children (h : d.Made parts n) : ∃ children : List Node,
    n.children = .sequence (children.map .node) ∧ children.Perm parts.nodes := by
  obtain ⟨children, horder, hchildren⟩ := h.children
  exact ⟨children, hchildren, perm_of_sourceOrder horder⟩

/-- A made node refers to **nodes of its parts**, or to what these refer to. -/
theorem mem_referents (h : d.Made parts n) {m : Node} (hm : m ∈ n.referents) :
    m ∈ parts.nodes ∨ ∃ c ∈ parts.nodes, m ∈ c.referents := by
  simp only [Node.referents, List.mem_append, Option.mem_toList] at hm
  rcases hm with (((((((hm | hm) | hm) | hm) | hm) | hm) | hm) | hm) | hm
  · exact .inl (Parts.mem_nodes_of_single? (h.id ▸ hm))
  · refine (mem_bodyWith (h.body ▸ hm)).imp_right fun ⟨c, hc, hmc⟩ => ⟨c, hc, ?_⟩
    simp only [Node.referents, List.mem_append]
    tauto
  · exact .inl (Parts.mem_nodes_of_many (h.params ▸ hm))
  · exact .inl (Parts.mem_nodes_of_many (argumentsWith_eq_ok h.arguments ▸ hm))
  · exact .inl (Parts.mem_nodes_of_single? ((calleeWith_eq_ok h.callee).1 ▸ hm))
  · exact .inl (Parts.mem_nodes_of_single? (h.receiver ▸ hm))
  · exact .inl (Parts.mem_nodes_of_single? ((memberWith_eq_ok h.member).1 ▸ hm))
  · rw [h.value, Option.or_eq_some_iff] at hm
    rcases hm with hm | ⟨-, hm⟩
    · exact .inl (Parts.mem_nodes_of_single? hm)
    · exact .inl (Parts.mem_nodes_of_single? hm)
  · obtain ⟨children, hchildren, hperm⟩ := h.exists_children
    rw [Node.childNodes_eq_of_children hchildren] at hm
    exact .inl (hperm.subset hm)

end Made

end NodeDocument

/-! ### Throughout a built tree -/

/-- The parts of an object are nodes **of the table**. -/
theorem Built.mem_nodes_partsOf {built : Built} {d : NodeDocument} {n : Node}
    (h : n ∈ (built.partsOf d).nodes) : ∃ label, built.get? label = some n := by
  obtain ⟨entry, hentry, hn⟩ := List.mem_flatMap.mp h
  obtain ⟨⟨key, part⟩, -, hpart⟩ := List.mem_filterMap.mp hentry
  obtain ⟨made, hmade, rfl⟩ := Option.map_eq_some_iff.mp hpart
  cases part with
  | one c =>
      obtain ⟨m, hm, rfl⟩ := Option.map_eq_some_iff.mp hmade
      obtain rfl := List.mem_singleton.mp hn
      exact ⟨c.label, hm⟩
  | many cs =>
      obtain rfl := Option.some.inj hmade
      obtain ⟨c, -, hc⟩ := List.mem_filterMap.mp hn
      exact ⟨c.label, hc⟩

section Throughout

variable {P : Node → Prop} {root : NodeDocument}

/-- What holds of a made node and throughout its parts holds throughout the node. -/
theorem NodeDocument.Made.throughout {d : NodeDocument} {parts : Parts} {n : Node}
    (h : d.Made parts n) (hn : P n) (hparts : ∀ c ∈ parts.nodes, c.Throughout P) :
    n.Throughout P := by
  refine .of_referents hn fun m hm => ?_
  rcases h.mem_referents hm with hpart | ⟨c, hc, hmc⟩
  · exact hparts m hpart
  · exact (hparts c hc).referent hmc

/-- All tasks are reachable, and a property holds throughout all nodes that are made. -/
structure Keeps (P : Node → Prop) (root : NodeDocument) (agenda : List Task) (built : Built) :
    Prop where
  reachable : ∀ task ∈ agenda, root.Reaches task.document
  node : ∀ label n, built.get? label = some n → n.Throughout P

/-- One turn **keeps** the property, if every node that is made has it. -/
theorem Keeps.turn {agenda agenda' : List Task} {built built' : Built} {made : List NodeDocument}
    (hP : ∀ d parts n, root.Reaches d → d.makeNode parts = .ok n → P n)
    (h : Keeps P root agenda built) (t : Turn agenda built made agenda' built') :
    Keeps P root agenda' built' := by
  cases t with
  | pass => exact ⟨fun task htask => h.reachable task (List.mem_cons_of_mem _ htask), h.node⟩
  | expand => exact ⟨reachable_expand h.reachable, h.node⟩
  | @make d rest _ n _ hn =>
      refine ⟨fun task htask => h.reachable task (List.mem_cons_of_mem _ htask), ?_⟩
      intro label m hm
      by_cases hlabel : d.label = label
      · obtain rfl : n = m := by simpa [Built.get?, hlabel] using hm
        have hPn := hP d _ n (h.reachable (.close d) List.mem_cons_self) hn
        refine (NodeDocument.made_of_makeNode hn).throughout hPn fun c hc => ?_
        obtain ⟨l, hl⟩ := Built.mem_nodes_partsOf hc
        exact h.node l c hl
      · rw [Built.get?_cons_of_ne hlabel] at hm
        exact h.node label m hm

/-- Any number of turns **keep** the property. -/
theorem Keeps.turns {agenda agenda' : List Task} {built built' : Built} {made : List NodeDocument}
    (hP : ∀ d parts n, root.Reaches d → d.makeNode parts = .ok n → P n)
    (h : Keeps P root agenda built) (ts : Turns agenda built made agenda' built') :
    Keeps P root agenda' built' := by
  induction ts with
  | refl => exact h
  | head t _ ih => exact ih (h.turn hP t)

/-- What holds of **every node that can be made** of a reachable object holds throughout the tree
of the document. -/
theorem throughout_of_ofDocument {document : Document} {n : Node}
    (hP : ∀ root d parts m, document.node? = some root → root.Reaches d →
      d.makeNode parts = .ok m → P m)
    (h : Node.ofDocument document = .ok n) : n.Throughout P := by
  rw [Node.ofDocument] at h
  split at h
  · exact nomatch h
  · next root hroot =>
    split at h
    · exact nomatch h
    · next built hbuilt =>
      split at h
      · next m hm =>
        obtain rfl := Except.ok.inj h
        obtain ⟨made, hturns⟩ := exists_turns_of_ok hbuilt
        have hstart : Keeps P root [.openUp root] [] :=
          ⟨by simp [Task.document, NodeDocument.Reaches.refl], by simp [Built.get?]⟩
        exact (hstart.turns (fun d parts k => hP root d parts k hroot) hturns).node _ m hm
      · exact nomatch h

end Throughout

/-! ### The contract -/

/-- The **contract** of a node: a call or `new` expression has a callee, a member expression an
object and a property, and the children are a sequence of nodes. -/
structure Node.Sound (n : Node) : Prop where
  callee : n.kind.isInvocation → n.callee.isSome
  member : n.kind = .memberExpression → n.member.isSome ∧ n.receiver.isSome
  children : n.HasChildNodes

/-- A node that has been made keeps the contract. -/
theorem sound_of_makeNode {d : NodeDocument} {parts : Parts} {n : Node}
    (h : d.makeNode parts = .ok n) : n.Sound := by
  have hmade := NodeDocument.made_of_makeNode h
  obtain ⟨children, hchildren, -⟩ := hmade.exists_children
  refine ⟨fun hkind => ?_, fun hkind => ?_, children, hchildren⟩
  · exact (NodeDocument.calleeWith_eq_ok hmade.callee).2 (hmade.kind ▸ hkind)
  · rw [hmade.receiver]
    exact (NodeDocument.memberWith_eq_ok hmade.member).2 (hmade.kind ▸ hkind)

end TreeLint
