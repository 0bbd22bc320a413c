import TreeLint.Proofs.Build.Rearranged

/-!
# The Order of Keys

Nodes are **alike** (`Node.Alike`) if they differ in nothing but their labels: they are of one kind,
of one name and so on, and what they refer to is alike in turn, children one by one. Only the order
of members inside a value, such as a place, is left open.

The order in which the members of an object are written shows in two ways while a tree is made: in
the order in which the nodes under its keys are collected, and in which of two children comes first
when they start at one place. The first is undone by looking up keys and by putting children in
order, and the second does not arise where children under different keys start at different places
(`NodeDocument.StartsApart`). So a rearranged document has an **alike tree**.

## Main results

* `Alike.toMatches`: what alike nodes have in common.
* `Counterparts.alike`, `NodeTable.alike`: rearranged objects are made into alike nodes, first from
  their children and then at any depth.
* `exists_ofDocument_of_rearranges`: a rearranged document has an alike tree.
-/

namespace TreeLint

open Sorting

/-! ### Related options -/

section Options

variable {α β γ δ : Type} {R : α → β → Prop} {a : Option α} {b : Option β}

/-- Options that are related stay so under a **weaker relation**. -/
theorem rel_mono {S : α → β → Prop} (h : Option.Rel R a b) (hRS : ∀ x y, R x y → S x y) :
    Option.Rel S a b := by
  cases h with
  | none => exact .none
  | some h => exact .some (hRS _ _ h)

/-- Options that are related have related **images**. -/
theorem rel_map {S : γ → δ → Prop} {f : α → γ} {g : β → δ} (h : Option.Rel R a b)
    (hfg : ∀ x ∈ a, ∀ y ∈ b, R x y → S (f x) (g y)) : Option.Rel S (a.map f) (b.map g) := by
  cases h with
  | none => exact .none
  | some h => exact .some (hfg _ rfl _ rfl h)

/-- The first of two options is related to the first of two others if **both pairs** are. -/
theorem rel_or {a' : Option α} {b' : Option β} (h : Option.Rel R a b) (h' : Option.Rel R a' b') :
    Option.Rel R (a.or a') (b.or b') := by
  cases h with
  | none => exact h'
  | some h => exact .some h

/-- Going on from related options gives **the same**, if it does so from related values. -/
theorem bind_eq_of_rel {f : α → Option γ} {g : β → Option γ} (h : Option.Rel R a b)
    (hfg : ∀ x y, R x y → f x = g y) : a.bind f = b.bind g := by
  cases h with
  | none => rfl
  | some h => exact hfg _ _ h

end Options

/-! ### Alike nodes -/

namespace Node

/-- Nodes **match**: they have the same attributes, and refer to related nodes. -/
structure Matches (R : Node → Node → Prop) (n m : Node) : Prop where
  kind : m.kind = n.kind
  name : m.name = n.name
  methodKind : n.methodKind.Rearranges m.methodKind
  modifiers : m.modifiers = n.modifiers
  span : n.span.Rearranges m.span
  id : Option.Rel R n.id m.id
  body : List.Forall₂ R n.body m.body
  params : List.Forall₂ R n.params m.params
  arguments : List.Forall₂ R n.arguments m.arguments
  callee : Option.Rel R n.callee m.callee
  receiver : Option.Rel R n.receiver m.receiver
  member : Option.Rel R n.member m.member
  value : Option.Rel R n.value m.value
  hasChildNodes : n.HasChildNodes ∧ m.HasChildNodes
  children : List.Forall₂ R n.childNodes m.childNodes

/-- Nodes that match do so for any **weaker relation** on what they refer to. -/
theorem Matches.mono {R S : Node → Node → Prop} {n m : Node} (h : n.Matches R m)
    (hRS : ∀ a b, R a b → S a b) : n.Matches S m where
  kind := h.kind
  name := h.name
  methodKind := h.methodKind
  modifiers := h.modifiers
  span := h.span
  id := rel_mono h.id hRS
  body := h.body.imp hRS
  params := h.params.imp hRS
  arguments := h.arguments.imp hRS
  callee := rel_mono h.callee hRS
  receiver := rel_mono h.receiver hRS
  member := rel_mono h.member hRS
  value := rel_mono h.value hRS
  hasChildNodes := h.hasChildNodes
  children := h.children.imp hRS

/-- Nodes are **alike** if they match and refer to alike nodes. Labels are not looked at. -/
inductive Alike : Node → Node → Prop
  | of {R : Node → Node → Prop} {n m : Node} (h : n.Matches R m) (hR : ∀ a b, R a b → Alike a b) :
    Alike n m

namespace Alike

variable {n m : Node}

/-- Alike nodes have **all in common** that can be asked about a node. -/
theorem toMatches (h : n.Alike m) : n.Matches Alike m := by
  cases h with
  | of h hR => exact h.mono hR

/-- Alike nodes are both **identifiers**, or neither is. -/
theorem isIdentifier (h : n.Alike m) : m.isIdentifier = n.isIdentifier := by
  rw [Node.isIdentifier, Node.isIdentifier, h.toMatches.kind]

/-- Alike nodes have **the same name** as identifiers. -/
theorem identifierName? (h : n.Alike m) : m.identifierName? = n.identifierName? := by
  rw [Node.identifierName?, Node.identifierName?, h.isIdentifier, h.toMatches.name]

end Alike

end Node

/-! ### Alike nodes from rearranged objects -/

/-- The children of each object start at whole numbers, and those **under different keys** of one
object start at different places. -/
structure NodeDocument.StartsApart (top : NodeDocument) : Prop where
  start : ∀ d, top.Reaches d → ∀ c ∈ d.children, c.span.start = .int c.startOffset
  apart : ∀ d, top.Reaches d → ∀ p ∈ d.parts, ∀ q ∈ d.parts, p.1 ≠ q.1 →
    ∀ a ∈ p.2.toList, ∀ b ∈ q.2.toList, a.startOffset ≠ b.startOffset

/-- Rearranging an object does not change that it **starts at a whole number**. -/
theorem NodeDocument.Rearranges.start_eq {d e : NodeDocument} (h : d.Rearranges e)
    (hstart : d.span.start = .int d.startOffset) : e.span.start = .int e.startOffset := by
  have hspan := h.span.start
  rw [hstart] at hspan
  rcases hspan.cases with ⟨-, heq⟩ | ⟨-, -, ⟨⟩, -⟩ | ⟨-, -, -, -, ⟨⟩, -⟩
  rw [heq, h.startOffset]

/-- The objects of a document with a tree are **acceptable**. -/
theorem NodeTable.isAcceptable {top d : NodeDocument} {built : Built} (h : NodeTable top built)
    (hd : top.Reaches d) : d.isAcceptable := by
  have hmade := h.made d hd
  have hchildren : ∀ c ∈ d.children, (built.get? c.label).isSome := by
    intro c hc
    rw [h.get? c (hd.child hc), Option.isSome_some]
  rw [← NodeDocument.supplied_iff (h.wellFormed.keys d hd) hchildren]
  exact ⟨⟨_, hmade.name⟩, ⟨_, hmade.arguments⟩, ⟨_, hmade.callee⟩, ⟨_, hmade.member⟩⟩

/-- Rearranged objects of two documents with trees, the **children** of which are made into alike
nodes. -/
structure Counterparts (top top' : NodeDocument) (built built' : Built) (d d' : NodeDocument) :
    Prop where
  table : NodeTable top built
  table' : NodeTable top' built'
  reaches : top.Reaches d
  reaches' : top'.Reaches d'
  rearranges : d.Rearranges d'
  child : ∀ c ∈ d.children, ∀ c' ∈ d'.children, c.Rearranges c' →
    (built.node c).Alike (built'.node c')

namespace Counterparts

variable {top top' d d' : NodeDocument} {built built' : Built} {key : String}

/-- Under a key there are **alike** nodes on both sides, or none. -/
theorem single? (h : Counterparts top top' built built' d d') (hkey : isSkipped key = false) :
    Option.Rel Node.Alike ((built.partsOf d).single? key) ((built'.partsOf d').single? key) := by
  rw [h.table.single?_partsOf h.reaches hkey, h.table'.single?_partsOf h.reaches' hkey]
  exact rel_map (h.rearranges.nodeAt? key) fun c hc c' hc' =>
    h.child c (NodeDocument.mem_children_of_nodeAt? hkey hc) c'
      (NodeDocument.mem_children_of_nodeAt? hkey hc')

/-- The lists under a key consist of **alike** nodes. -/
theorem many (h : Counterparts top top' built built' d d') (hkey : isSkipped key = false) :
    List.Forall₂ Node.Alike ((built.partsOf d).many key) ((built'.partsOf d').many key) := by
  rw [h.table.many_partsOf h.reaches hkey, h.table'.many_partsOf h.reaches' hkey,
    List.forall₂_map_left_iff, List.forall₂_map_right_iff]
  exact forall₂_of_mem (h.rearranges.nodesAt key) fun c hc c' hc' =>
    h.child c (NodeDocument.mem_children_of_nodesAt hkey hc) c'
      (NodeDocument.mem_children_of_nodesAt hkey hc')

/-- Rearranged objects give a node **the same name**, or the same fault. -/
theorem nameWith_eq (h : Counterparts top top' built built' d d') :
    d'.nameWith (built'.partsOf d') = d.nameWith (built.partsOf d) := by
  have hbind : ∀ key, isSkipped key = false →
      ((built'.partsOf d').single? key).bind Node.identifierName? =
        ((built.partsOf d).single? key).bind Node.identifierName? := fun key hkey =>
    (bind_eq_of_rel (h.single? hkey) fun _ _ hnm => hnm.identifierName?.symm).symm
  rw [NodeDocument.nameWith, NodeDocument.nameWith, h.rearranges.kind, hbind "id" rfl,
    hbind "key" rfl]
  rcases (h.rearranges.getD "name").cases with ⟨-, heq⟩ | ⟨xs, ys, hx, hy, -⟩ |
    ⟨l, ms, l', ns, hx, hy, -⟩
  · rw [heq]
  · rw [hx, hy]
  · rw [hx, hy]

/-- Rearranged objects give a node **alike bodies**. -/
theorem bodyWith (h : Counterparts top top' built built' d d') :
    List.Forall₂ Node.Alike (d.bodyWith (built.partsOf d)) (d'.bodyWith (built'.partsOf d')) := by
  have hbody := h.single? (rfl : isSkipped "body" = false)
  rw [NodeDocument.bodyWith, NodeDocument.bodyWith, h.rearranges.kind]
  cases d.kind with
  | classDeclaration =>
      dsimp only
      generalize (built.partsOf d).single? "body" = a, (built'.partsOf d').single? "body" = b
        at hbody
      cases hbody with
      | none => exact .nil
      | some hnm => exact hnm.toMatches.body
  | _ => exact h.many rfl

/-- In order of where they start, **children** are alike one by one. -/
theorem childNodes (h : Counterparts top top' built built' d d') (hapart : top.StartsApart) :
    List.Forall₂ Node.Alike (built.node d).childNodes (built'.node d').childNodes := by
  have hstart' : ∀ c' ∈ d'.children, c'.span.start = .int c'.startOffset := by
    intro c' hc'
    obtain ⟨c, hc, hcc'⟩ := h.rearranges.exists_child.2 c' hc'
    exact hcc'.start_eq (hapart.start d h.reaches c hc)
  rw [h.table.childNodes_eq h.reaches (hapart.start d h.reaches),
    h.table'.childNodes_eq h.reaches' hstart', List.forall₂_map_left_iff,
    List.forall₂_map_right_iff]
  exact forall₂_of_mem (h.rearranges.sorted (hapart.apart d h.reaches)) fun c hc c' hc' =>
    h.child c (mem_stableSort.mp hc) c' (mem_stableSort.mp hc')

/-- Where the children are made into alike nodes, **so are the objects**. -/
theorem alike (h : Counterparts top top' built built' d d') (hapart : top.StartsApart) :
    (built.node d).Alike (built'.node d') := by
  have hmade := h.table.made d h.reaches
  have hmade' := h.table'.made d' h.reaches'
  refine .of (R := Node.Alike) ?_ fun _ _ hnm => hnm
  constructor
  case kind => rw [hmade.kind, hmade'.kind, h.rearranges.kind]
  case name =>
    have hname := h.nameWith_eq
    rw [hmade.name, hmade'.name] at hname
    exact Except.ok.inj hname
  case methodKind =>
    rw [hmade.methodKind, hmade'.methodKind, h.rearranges.kind]
    split
    · exact (h.rearranges.getD "kind").erase
    · exact .null
  case modifiers => rw [hmade.modifiers, hmade'.modifiers, h.rearranges.modifiers]
  case span =>
    rw [hmade.span, hmade'.span]
    exact h.rearranges.span
  case id =>
    rw [hmade.id, hmade'.id]
    exact h.single? rfl
  case body =>
    rw [hmade.body, hmade'.body]
    exact h.bodyWith
  case params =>
    rw [hmade.params, hmade'.params]
    exact h.many rfl
  case arguments =>
    rw [NodeDocument.argumentsWith_eq_ok hmade.arguments,
      NodeDocument.argumentsWith_eq_ok hmade'.arguments]
    exact h.many rfl
  case callee =>
    rw [(NodeDocument.calleeWith_eq_ok hmade.callee).1,
      (NodeDocument.calleeWith_eq_ok hmade'.callee).1]
    exact h.single? rfl
  case receiver =>
    rw [hmade.receiver, hmade'.receiver]
    exact h.single? rfl
  case member =>
    rw [(NodeDocument.memberWith_eq_ok hmade.member).1,
      (NodeDocument.memberWith_eq_ok hmade'.member).1]
    exact h.single? rfl
  case value =>
    rw [hmade.value, hmade'.value]
    exact rel_or (h.single? rfl) (h.single? rfl)
  case hasChildNodes =>
    obtain ⟨children, hchildren, -⟩ := hmade.exists_children
    obtain ⟨children', hchildren', -⟩ := hmade'.exists_children
    exact ⟨⟨children, hchildren⟩, ⟨children', hchildren'⟩⟩
  case children => exact h.childNodes hapart

end Counterparts

/-- Rearranged objects are made into **alike nodes**. -/
theorem NodeTable.alike {top top' d d' : NodeDocument} {built built' : Built}
    (h : NodeTable top built) (h' : NodeTable top' built') (hapart : top.StartsApart)
    (hd : top.Reaches d) (hd' : top'.Reaches d') (hrel : d.Rearranges d') :
    (built.node d).Alike (built'.node d') := by
  induction d using NodeDocument.induction_children generalizing d' with
  | h d ih =>
      have hparts : Counterparts top top' built built' d d' :=
        ⟨h, h', hd, hd', hrel,
          fun c hc c' hc' hcc' => ih c hc (hd.child hc) (hd'.child hc') hcc'⟩
      exact hparts.alike hapart

/-! ### Rearranged documents -/

/-- A rearranged document **has a tree**, and the tree is alike. -/
theorem exists_ofDocument_of_rearranges {document document' : Document} {top : NodeDocument}
    {root : Node} (h : document.Rearranges document') (htop : document.node? = some top)
    (hcoherent : top.Coherent)
    (hcoherent' : ∀ top', document'.node? = some top' → top'.Coherent)
    (hapart : top.StartsApart) (hroot : Node.ofDocument document = .ok root) :
    ∃ root', Node.ofDocument document' = .ok root' ∧ root.Alike root' := by
  obtain ⟨top', htop', hrel⟩ : ∃ top', document'.node? = some top' ∧ top.Rearranges top' := by
    have hnode := h.node?
    rw [htop] at hnode
    generalize document'.node? = a at hnode
    cases hnode with
    | some hrel => exact ⟨_, rfl, hrel⟩
  have hwf : top.WellFormed := by
    refine ⟨hcoherent, fun d hd => ?_⟩
    obtain ⟨d', -, hdd'⟩ := hrel.exists_reaches.1 d hd
    exact hdd'.members.nodup
  have hwf' : top'.WellFormed := by
    refine ⟨hcoherent' top' htop', fun d' hd' => ?_⟩
    obtain ⟨d, -, hdd'⟩ := hrel.exists_reaches.2 d' hd'
    exact hdd'.members.nodup_right
  obtain ⟨built, htable, rfl⟩ := exists_table hwf htop hroot
  obtain ⟨root', hroot'⟩ : ∃ root', Node.ofDocument document' = .ok root' := by
    cases hbuild : top'.build [] with
    | ok built' =>
        obtain ⟨root', -, hroot'⟩ :=
          exists_ofDocument_of_build_ok hwf'.coherent htop' hbuild
        exact ⟨root', hroot'⟩
    | error fault =>
        have hstart : ∀ d', top'.Reaches d' → ∀ c' ∈ d'.children,
            c'.span.start.isNull = false → ∃ x, c'.span.start.magnitude? = some x := by
          intro d' hd' c' hc' _
          obtain ⟨d, hd, hdd'⟩ := hrel.exists_reaches.2 d' hd'
          obtain ⟨c, hc, hcc'⟩ := hdd'.exists_child.2 c' hc'
          rw [hcc'.start_eq (hapart.start d hd c hc)]
          exact ⟨_, rfl⟩
        -- the object at fault has a partner, of which a node has been made
        obtain ⟨⟨d', hd', hnot⟩, -⟩ := exists_not_acceptable_of_starts hwf' hstart hbuild
        obtain ⟨d, hd, hdd'⟩ := hrel.exists_reaches.2 d' hd'
        exact absurd (hdd'.isAcceptable_iff.mpr (htable.isAcceptable hd)) hnot
  obtain ⟨built', htable', rfl⟩ := exists_table hwf' htop' hroot'
  exact ⟨_, hroot', htable.alike htable' hapart (.refl top) (.refl top') hrel⟩

end TreeLint
