import TreeLint.Proofs.Build.Language

/-!
# Nodes and Their Objects

When a document has a tree, every object of it that describes a node has been made into one node
(`NodeTable`), which is read off the table of made nodes (`Built.node`). What a node refers to is
what its object holds, node for object: the single node under a key, the nodes in a list, the
children. So whatever is asked about a node of the tree can be asked about its object instead.

A walk of the tree visits the objects of the document, **each at each of its places**
(`exists_visits`). The order is that of the walk, since children are in source order and not in the
order of the document.

## Main results

* `exists_table`: the table of a document with a tree.
* `NodeTable.single?_partsOf`, `NodeTable.many_partsOf`: the parts of a node are the nodes of its
  object's.
* `NodeTable.className`, `NodeTable.fieldName`, `NodeTable.classBody`: names and class members, told
  from the object.
* `NodeTable.exists_visits`: the objects that a walk visits.
-/

namespace TreeLint

/-- The node made of an object. -/
def Built.node (built : Built) (d : NodeDocument) : Node := (built.get? d.label).getD default

/-- A **table** that has a node for every object of a well-formed document. -/
structure NodeTable (top : NodeDocument) (built : Built) : Prop where
  wellFormed : top.WellFormed
  get? : ∀ d, top.Reaches d → built.get? d.label = some (built.node d)
  made : ∀ d, top.Reaches d → d.Made (built.partsOf d) (built.node d)

/-- A document with a tree has a table, in which the tree is the node of the whole document. -/
theorem exists_table {document : Document} {top : NodeDocument} {root : Node}
    (hwf : top.WellFormed) (htop : document.node? = some top)
    (h : Node.ofDocument document = .ok root) :
    ∃ built, NodeTable top built ∧ built.node top = root := by
  cases hbuild : top.build [] with
  | error fault =>
      rw [ofDocument_of_build_error hwf.coherent htop hbuild] at h
      cases h
  | ok built =>
      have hnode : ∀ d, top.Reaches d → built.get? d.label = some (built.node d) ∧
          d.makeNode (built.partsOf d) = .ok (built.node d) := by
        intro d hd
        obtain ⟨n, hget, hmake⟩ := exists_node_of_build_ok hwf.coherent hbuild hd
        rw [Built.node, hget]
        exact ⟨rfl, hmake⟩
      refine ⟨built, ⟨hwf, fun d hd => (hnode d hd).1,
        fun d hd => NodeDocument.made_of_makeNode (hnode d hd).2⟩, ?_⟩
      obtain ⟨n, hget, hn⟩ := exists_ofDocument_of_build_ok hwf.coherent htop hbuild
      rw [Built.node, hget]
      exact Except.ok.inj (hn.symm.trans h)

namespace NodeDocument

/-! ### What is asked about an object -/

/-- The name of an object that is an identifier. -/
def identifierName? (d : NodeDocument) : Option String :=
  if d.type = "Identifier" then (d.getD "name").str? else none

/-- The value of a class member: what is under `value` or, failing that, under `initializer`. -/
def valueNode? (d : NodeDocument) : Option NodeDocument :=
  (d.nodeAt? "value").or (d.nodeAt? "initializer")

/-- The members of a class: the nodes in the body of its body. -/
def classMembers (d : NodeDocument) : List NodeDocument :=
  (d.nodeAt? "body").toList.flatMap (·.nodesAt "body")

/-- Whether there is a list under a key. -/
def hasList (d : NodeDocument) (key : String) : Bool :=
  match d.getD key with
  | .arr _ => true
  | _ => false

/-- Whether the body of a class, if there is one, is a class body with a list. -/
def hasClassBody (d : NodeDocument) : Bool :=
  match d.nodeAt? "body" with
  | some body => body.type == "ClassBody" && body.hasList "body"
  | none => (d.getD "body").isNull

end NodeDocument

/-! ### Node for object -/

namespace NodeTable

variable {top d : NodeDocument} {built : Built} {key : String}

/-- The object under a key that is not skipped is **reachable**. -/
theorem reaches_nodeAt? (hd : top.Reaches d) (hkey : isSkipped key = false) {c : NodeDocument}
    (hc : d.nodeAt? key = some c) : top.Reaches c :=
  hd.child (NodeDocument.mem_children_of_nodeAt? hkey hc)

/-- The objects of a list under a key that is not skipped are **reachable**. -/
theorem reaches_nodesAt (hd : top.Reaches d) (hkey : isSkipped key = false) {c : NodeDocument}
    (hc : c ∈ d.nodesAt key) : top.Reaches c :=
  hd.child (NodeDocument.mem_children_of_nodesAt hkey hc)

/-- The object that describes a value is **reachable**. -/
theorem reaches_valueNode? (hd : top.Reaches d) {c : NodeDocument} (hc : d.valueNode? = some c) :
    top.Reaches c := by
  rcases Option.or_eq_some_iff.mp hc with hc | ⟨-, hc⟩
  · exact reaches_nodeAt? hd rfl hc
  · exact reaches_nodeAt? hd rfl hc

/-- The objects that describe the members of a class are **reachable**. -/
theorem reaches_classMembers (hd : top.Reaches d) {m : NodeDocument} (hm : m ∈ d.classMembers) :
    top.Reaches m := by
  obtain ⟨body, hbody, hm⟩ := List.mem_flatMap.mp hm
  exact reaches_nodesAt (reaches_nodeAt? hd rfl (Option.mem_toList.mp hbody)) rfl hm

/-- The node under a key is **the node of the object** there. -/
theorem single?_partsOf (h : NodeTable top built) (hd : top.Reaches d)
    (hkey : isSkipped key = false) :
    (built.partsOf d).single? key = (d.nodeAt? key).map built.node := by
  rw [NodeDocument.single?_partsOf (h.wellFormed.keys d hd) hkey]
  cases hc : d.nodeAt? key with
  | none => rfl
  | some c => exact h.get? c (reaches_nodeAt? hd hkey hc)

/-- The nodes under a key are **the nodes of the objects** there. -/
theorem many_partsOf (h : NodeTable top built) (hd : top.Reaches d) (hkey : isSkipped key = false) :
    (built.partsOf d).many key = (d.nodesAt key).map built.node := by
  rw [NodeDocument.many_partsOf (h.wellFormed.keys d hd) hkey, ← List.filterMap_eq_map]
  exact List.filterMap_congr fun c hc => h.get? c (reaches_nodesAt hd hkey hc)

/-- The parts of an object are the nodes **of its children**, in order. -/
theorem nodes_partsOf (h : NodeTable top built) (hd : top.Reaches d) :
    (built.partsOf d).nodes = d.children.map built.node := by
  rw [NodeDocument.nodes_partsOf, ← List.filterMap_eq_map]
  exact List.filterMap_congr fun c hc => h.get? c (hd.child hc)

/-- The parameters of a node are the nodes of the objects **under** `params`. -/
theorem params (h : NodeTable top built) (hd : top.Reaches d) :
    (built.node d).params = (d.nodesAt "params").map built.node :=
  (h.made d hd).params.trans (h.many_partsOf hd rfl)

/-- The arguments of a node are the nodes of the objects **under** `arguments`. -/
theorem arguments (h : NodeTable top built) (hd : top.Reaches d) :
    (built.node d).arguments = (d.nodesAt "arguments").map built.node :=
  (NodeDocument.argumentsWith_eq_ok (h.made d hd).arguments).trans (h.many_partsOf hd rfl)

/-- The callee of a node is the node of the object **under** `callee`. -/
theorem callee (h : NodeTable top built) (hd : top.Reaches d) :
    (built.node d).callee = (d.nodeAt? "callee").map built.node :=
  (NodeDocument.calleeWith_eq_ok (h.made d hd).callee).1.trans (h.single?_partsOf hd rfl)

/-- The value of a node is the node of the object that **describes it**. -/
theorem value (h : NodeTable top built) (hd : top.Reaches d) :
    (built.node d).value = d.valueNode?.map built.node := by
  rw [(h.made d hd).value, h.single?_partsOf hd rfl, h.single?_partsOf hd rfl,
    NodeDocument.valueNode?, Option.map_or]

/-- A node is an identifier of a name **if its object is**. -/
theorem identifierName? (h : NodeTable top built) (hd : top.Reaches d) :
    (built.node d).identifierName? = d.identifierName? := by
  have hmade := h.made d hd
  have hkind : d.kind = .identifier ↔ d.type = "Identifier" :=
    NodeDocument.kind_eq_iff (by decide) (by decide)
  rw [Node.identifierName?, Node.isIdentifier, hmade.kind, NodeDocument.identifierName?]
  by_cases htype : d.type = "Identifier"
  · have hname := hmade.name
    rw [NodeDocument.nameWith, hkind.mpr htype] at hname
    rw [if_pos htype, hkind.mpr htype, if_pos (by rfl)]
    cases hvalue : d.getD "name" with
    | str name =>
        rw [hvalue] at hname
        exact (Except.ok.inj hname).symm
    | _ =>
        rw [hvalue] at hname
        cases hname
  · rw [if_neg htype, if_neg (by simpa using mt hkind.mp htype)]

/-- The name of an identifier under a key is that of **its object**. -/
theorem identifierName?_under (h : NodeTable top built) (hd : top.Reaches d)
    (hkey : isSkipped key = false) :
    ((built.partsOf d).single? key).bind Node.identifierName? =
      (d.nodeAt? key).bind NodeDocument.identifierName? := by
  rw [h.single?_partsOf hd hkey]
  cases hc : d.nodeAt? key with
  | none => rfl
  | some c => exact h.identifierName? (reaches_nodeAt? hd hkey hc)

/-- A class is named by its `id`. -/
theorem className (h : NodeTable top built) (hd : top.Reaches d)
    (hkind : d.kind = .classDeclaration) :
    (built.node d).name = (d.nodeAt? "id").bind NodeDocument.identifierName? := by
  have hname := (h.made d hd).name
  rw [NodeDocument.nameWith, hkind] at hname
  exact (Except.ok.inj hname).symm.trans (h.identifierName?_under hd rfl)

/-- A field of a class is named by its `key`. -/
theorem fieldName (h : NodeTable top built) (hd : top.Reaches d)
    (hkind : d.kind = .propertyDefinition) :
    (built.node d).name = (d.nodeAt? "key").bind NodeDocument.identifierName? := by
  have hname := (h.made d hd).name
  rw [NodeDocument.nameWith, hkind] at hname
  exact (Except.ok.inj hname).symm.trans (h.identifierName?_under hd rfl)

/-- The body of a class is made of its **members**. -/
theorem classBody (h : NodeTable top built) (hd : top.Reaches d)
    (hkind : d.kind = .classDeclaration) (hbody : d.hasClassBody) :
    (built.node d).body = d.classMembers.map built.node := by
  rw [(h.made d hd).body, NodeDocument.bodyWith, hkind, h.single?_partsOf hd rfl,
    NodeDocument.classMembers]
  cases hc : d.nodeAt? "body" with
  | none => rfl
  | some body =>
      rw [NodeDocument.hasClassBody, hc, Bool.and_eq_true, beq_iff_eq] at hbody
      have hreaches := reaches_nodeAt? hd rfl hc
      have hkind' : body.kind = .classBody ↔ body.type = "ClassBody" :=
        NodeDocument.kind_eq_iff (by decide) (by decide)
      have hmembers : (built.node body).body = (body.nodesAt "body").map built.node := by
        rw [(h.made body hreaches).body, NodeDocument.bodyWith, hkind'.mpr hbody.1]
        exact h.many_partsOf hreaches rfl
      simpa using hmembers

/-! ### The objects of a walk -/

/-- **A walk visits the objects of the document**, each at each of its places. -/
theorem exists_visits (h : NodeTable top built) (hd : top.Reaches d) :
    ∃ visits : List NodeDocument, visits.Perm d.postOrder ∧
      (built.node d).preorder = visits.map built.node := by
  induction d using NodeDocument.induction_children with
  | h d ih =>
      obtain ⟨children, hchildren, hperm⟩ := (h.made d hd).exists_children
      rw [h.nodes_partsOf hd] at hperm
      obtain ⟨cs, hcs, rfl⟩ := exists_perm_of_perm_map hperm
      choose! below hbelow using fun c hc => ih c hc (hd.child hc)
      have hmem : ∀ c ∈ cs, c ∈ d.children := fun c hc => hcs.subset hc
      refine ⟨d :: cs.flatMap below, ?_, ?_⟩
      · rw [NodeDocument.postOrder_eq]
        refine .trans ?_ List.perm_append_comm
        refine .cons d (.trans (.flatMap_left cs fun c hc => (hbelow c (hmem c hc)).1) ?_)
        exact (hcs.trans (List.reverse_perm _).symm).flatMap_right _
      · rw [Node.preorder_eq, Node.childNodes_eq_of_children hchildren, List.map_cons,
          List.flatMap_map, List.map_flatMap]
        exact congrArg _ (List.flatMap_congr fun c hc => (hbelow c (hmem c hc)).2)

end NodeTable

end TreeLint
