import TreeLint.Proofs.Build.NormalForm
import TreeLint.Proofs.Sorting.Naturality

/-!
# The Tree of a Normal Form

A document and its normal form have **the same tree**, or both have none for the same fault. The
agendas of the two documents are worked off in step: at each turn the same objects are opened or
closed, in the same order, and what is made of the normal form of an object is what is made of the
object.

One attribute is different. The kind of a method is handed on as the document has it, whatever
value that is. Where it is a node, or lists nodes, it is written anew with the rest of the document,
so the method kinds in the tree of the normal form are themselves in normal form
(`Node.normalise`). Method kinds that are texts, or any other values without nodes, stay as they
are.

## Main results

* `NodeDocument.makeNode_normalise`: what is made of the normal form of an object.
* `runAgenda_normalise`: the agendas are worked off in step.
* `Node.mapMethodKind_eq_self`: trees that a change of method kinds leaves alone.
* `ofDocument_normalise`: the tree of a normal form.
-/

namespace TreeLint

/-! ### Changed method kinds -/

mutual

/-- The tree with the **method kinds** of all its nodes changed, also of those that nodes refer
to. -/
def Node.mapMethodKind (f : Json → Json) : Node → Node
  | ⟨label, kind, name, methodKind, modifiers, span, id, body, params, arguments, callee, receiver,
      member, value, children⟩ =>
    { label, kind, name, methodKind := f methodKind, modifiers, span
      id := Node.mapMethodKind? f id
      body := Node.mapMethodKinds f body
      params := Node.mapMethodKinds f params
      arguments := Node.mapMethodKinds f arguments
      callee := Node.mapMethodKind? f callee
      receiver := Node.mapMethodKind? f receiver
      member := Node.mapMethodKind? f member
      value := Node.mapMethodKind? f value
      children := Children.mapMethodKind f children }

/-- The same for a node that may be missing. -/
def Node.mapMethodKind? (f : Json → Json) : Option Node → Option Node
  | none => none
  | some n => some (n.mapMethodKind f)

/-- The same for a list of nodes. -/
def Node.mapMethodKinds (f : Json → Json) : List Node → List Node
  | [] => []
  | n :: rest => n.mapMethodKind f :: Node.mapMethodKinds f rest

/-- The same for the children of a node. -/
def Children.mapMethodKind (f : Json → Json) : Children Node → Children Node
  | .sequence items => .sequence (Child.mapMethodKinds f items)
  | .invalid => .invalid

/-- The same for a list of children. -/
def Child.mapMethodKinds (f : Json → Json) : List (Child Node) → List (Child Node)
  | [] => []
  | child :: rest => Child.mapMethodKind f child :: Child.mapMethodKinds f rest

/-- The same for one child. -/
def Child.mapMethodKind (f : Json → Json) : Child Node → Child Node
  | .node n => .node (n.mapMethodKind f)
  | .foreign type => .foreign type

end

section MapMethodKind

variable (f : Json → Json)

/-- A node that may be missing is changed **as a node**, if it is there. -/
theorem Node.mapMethodKind?_eq (n : Option Node) :
    mapMethodKind? f n = n.map (mapMethodKind f) := by
  cases n with
  | none => rw [mapMethodKind?, Option.map_none]
  | some n => rw [mapMethodKind?, Option.map_some]

/-- The nodes of a list are changed **one by one**. -/
theorem Node.mapMethodKinds_eq (ns : List Node) :
    mapMethodKinds f ns = ns.map (mapMethodKind f) := by
  induction ns with
  | nil => rw [mapMethodKinds, List.map_nil]
  | cons n ns ih => rw [mapMethodKinds, ih, List.map_cons]

/-- Children that are nodes are changed **one by one**. -/
theorem Child.mapMethodKinds_nodes (ns : List Node) :
    mapMethodKinds f (ns.map .node) = (ns.map (Node.mapMethodKind f)).map .node := by
  induction ns with
  | nil => simp [mapMethodKinds]
  | cons n ns ih =>
      rw [List.map_cons, mapMethodKinds, mapMethodKind, ih, List.map_cons, List.map_cons]

/-- A change of method kinds goes through **all that a node refers to**, and leaves the rest as it
is. -/
theorem Node.mapMethodKind_eq (n : Node) :
    n.mapMethodKind f = { n with
      methodKind := f n.methodKind
      id := n.id.map (mapMethodKind f)
      body := n.body.map (mapMethodKind f)
      params := n.params.map (mapMethodKind f)
      arguments := n.arguments.map (mapMethodKind f)
      callee := n.callee.map (mapMethodKind f)
      receiver := n.receiver.map (mapMethodKind f)
      member := n.member.map (mapMethodKind f)
      value := n.value.map (mapMethodKind f)
      children := n.children.mapMethodKind f } := by
  cases n
  simp only [mapMethodKind, mapMethodKind?_eq, mapMethodKinds_eq]

@[simp] theorem Node.kind_mapMethodKind (n : Node) : (n.mapMethodKind f).kind = n.kind := by
  rw [mapMethodKind_eq]

@[simp] theorem Node.name_mapMethodKind (n : Node) : (n.mapMethodKind f).name = n.name := by
  rw [mapMethodKind_eq]

@[simp] theorem Node.span_mapMethodKind (n : Node) : (n.mapMethodKind f).span = n.span := by
  rw [mapMethodKind_eq]

@[simp] theorem Node.body_mapMethodKind (n : Node) :
    (n.mapMethodKind f).body = n.body.map (mapMethodKind f) := by
  rw [mapMethodKind_eq]

@[simp] theorem Node.identifierName?_mapMethodKind (n : Node) :
    (n.mapMethodKind f).identifierName? = n.identifierName? := by
  simp [identifierName?, isIdentifier]

end MapMethodKind

/-! ### Parts -/

namespace Parts

/-- Parts with other nodes, under other keys. -/
def mapNodes (rename : String → String) (f : Node → Node) (parts : Parts) : Parts :=
  parts.map fun part => (rename part.1, part.2.map f)

variable {rename : String → String} {f : Node → Node} {parts : Parts} {key old : String}

/-- Under a key that is renamed, there are the changed nodes of the part **under its old key**. -/
theorem lookup?_mapNodes (h : ∀ part ∈ parts, rename part.1 = key ↔ part.1 = old) :
    lookup? key (parts.mapNodes rename f) = (lookup? old parts).map (Part.map f) :=
  lookup?_map (g := fun _ : String => Part.map f) h

/-- The single node under a renamed key is that under **its old key**, changed. -/
theorem single?_mapNodes (h : ∀ part ∈ parts, rename part.1 = key ↔ part.1 = old) :
    (parts.mapNodes rename f).single? key = (parts.single? old).map f := by
  rw [single?, single?, lookup?_mapNodes h]
  rcases lookup? old parts with _ | _ | _ <;> rfl

/-- The nodes under a renamed key are those under **its old key**, changed. -/
theorem many_mapNodes (h : ∀ part ∈ parts, rename part.1 = key ↔ part.1 = old) :
    (parts.mapNodes rename f).many key = (parts.many old).map f := by
  rw [many, many, lookup?_mapNodes h]
  rcases lookup? old parts with _ | _ | _ <;> rfl

/-- The nodes of renamed parts are **the same**, changed. -/
theorem nodes_mapNodes : (parts.mapNodes rename f).nodes = parts.nodes.map f := by
  rw [nodes, nodes, mapNodes, List.flatMap_map, List.map_flatMap]
  exact List.flatMap_congr fun part _ => Part.toList_map f part.2

end Parts

/-! ### One node -/

/-- The tree with the method kinds of all its nodes **in normal form**. -/
def Node.normalise : Node → Node := mapMethodKind (Value.normaliseUnder "kind")

namespace NodeDocument

variable {d : NodeDocument} {parts : Parts}

/-- Parts under their present keys, with method kinds in normal form. -/
def normalParts (d : NodeDocument) (parts : Parts) : Parts :=
  parts.mapNodes (normalKey (d.get? "value").isSome) Node.normalise

/-- Under a key that is kept, there is **the same node** in normal form. -/
theorem single?_normalParts {key : String} (hkept : isKept key) :
    (d.normalParts parts).single? key = (parts.single? key).map Node.normalise :=
  Parts.single?_mapNodes fun _ _ => normalKey_eq_iff hkept

/-- Under a key that is kept, there are **the same nodes** in normal form. -/
theorem many_normalParts {key : String} (hkept : isKept key) :
    (d.normalParts parts).many key = (parts.many key).map Node.normalise :=
  Parts.many_mapNodes fun _ _ => normalKey_eq_iff hkept

/-- An object in normal form gives its node **the same name**, or the same fault. -/
theorem nameWith_normalise :
    d.normalise.nameWith (d.normalParts parts) = d.nameWith parts := by
  have hbind : ∀ key, isKept key →
      ((d.normalParts parts).single? key).bind Node.identifierName? =
        (parts.single? key).bind Node.identifierName? := by
    intro key hkept
    rw [single?_normalParts hkept]
    cases parts.single? key with
    | none => rfl
    | some n => exact n.identifierName?_mapMethodKind _
  rw [nameWith, nameWith, kind_normalise, hbind "id" rfl, hbind "key" rfl,
    getD_normalise rfl (by decide)]
  have htype : "name" ≠ "type" := by decide
  rcases (d.getD "name").normaliseUnder_cases htype with h | ⟨_, _, hv, h⟩ | ⟨_, _, _, hv, h⟩
  · rw [h]
  · rw [h, hv]
  · rw [h, hv]

/-- An object in normal form gives its node the same body **in normal form**. -/
theorem bodyWith_normalise :
    d.normalise.bodyWith (d.normalParts parts) = (d.bodyWith parts).map Node.normalise := by
  rw [bodyWith, bodyWith, kind_normalise, single?_normalParts rfl, many_normalParts rfl]
  cases d.kind with
  | classDeclaration =>
      cases parts.single? "body" with
      | none => rfl
      | some classBody => exact classBody.body_mapMethodKind _
  | _ => rfl

/-- An object in normal form gives its node the same arguments **in normal form**, or the same
fault. -/
theorem argumentsWith_normalise :
    d.normalise.argumentsWith (d.normalParts parts) =
      (d.argumentsWith parts).map (List.map Node.normalise) := by
  rw [argumentsWith, argumentsWith, kind_normalise, many_normalParts rfl, get?_normalise rfl]
  cases hkind : d.kind.isInvocation with
  | false => rfl
  | true =>
      have htype : d.normalise.type = d.type := by
        refine if_neg fun h => ?_
        rw [kind, h] at hkind
        cases hkind
      rw [htype]
      cases d.get? "arguments" with
      | none => rfl
      | some v =>
          rw [Option.map_some]
          have hne : "arguments" ≠ "type" := by decide
          rcases v.normaliseUnder_cases hne with h | ⟨_, _, hv, h⟩ | ⟨_, _, _, hv, h⟩
          · rw [h]
            cases v <;> rfl
          · rw [h, hv]
            rfl
          · rw [h, hv]
            rfl

/-- An object in normal form gives its node the same callee **in normal form**, or the same fault.
-/
theorem calleeWith_normalise :
    d.normalise.calleeWith (d.normalParts parts) =
      (d.calleeWith parts).map (Option.map Node.normalise) := by
  rw [calleeWith, calleeWith, kind_normalise, single?_normalParts rfl]
  cases d.kind.isInvocation <;> cases parts.single? "callee" <;> rfl

/-- An object in normal form gives its node the same member **in normal form**, or the same fault.
-/
theorem memberWith_normalise :
    d.normalise.memberWith (d.normalParts parts) =
      (d.memberWith parts).map (Option.map Node.normalise) := by
  have hnone : ∀ key, isKept key →
      ((d.normalParts parts).single? key).isNone = (parts.single? key).isNone := by
    intro key hkept
    rw [single?_normalParts hkept, Option.isNone_map]
  rw [memberWith, memberWith, kind_normalise, hnone "object" rfl, hnone "property" rfl,
    single?_normalParts rfl]
  split <;> rfl

/-- Method kinds do not matter to the **order of children**. -/
theorem sourceOrder_normalise (children : List Node) :
    sourceOrder (children.map Node.normalise) =
      (sourceOrder children).map (List.map Node.normalise) := by
  have hspan : ∀ n : Node, n.normalise.span = n.span := fun n => n.span_mapMethodKind _
  have hsort : sortBy? (fun a b => a.span.start.before b.span.start)
      (children.map Node.normalise) = List.map Node.normalise <$>
        sortBy? (fun a b => a.span.start.before b.span.start) children :=
    sortBy?_map (fun a b => by rw [hspan, hspan]) children
  rw [sourceOrder, sourceOrder, List.all_map]
  simp only [Function.comp_def, hspan]
  split
  · exact hsort
  · rfl

/-- The value of a class member is found **under either key**. -/
theorem value_normalParts (h : d.get? "value" = none → "value" ∉ parts.map Prod.fst) :
    ((d.normalParts parts).single? "value").or ((d.normalParts parts).single? "initializer") =
      ((parts.single? "value").or (parts.single? "initializer")).map Node.normalise := by
  rw [normalParts]
  cases hvalue : d.get? "value" with
  | some v =>
      have hrename : ∀ key k, normalKey true k = key ↔ k = key := by
        intro key k
        rw [normalKey, if_neg fun h => Bool.false_ne_true h.2.symm]
      rw [Option.isSome_some, Parts.single?_mapNodes fun _ _ => hrename "value" _,
        Parts.single?_mapNodes fun _ _ => hrename "initializer" _]
      cases parts.single? "value" <;> rfl
  | none =>
      have hkeys := h hvalue
      have hnone : parts.single? "value" = none := by
        rw [Parts.single?, lookup?_eq_none hkeys]
      have hrename : ∀ part ∈ parts, normalKey false part.1 = "value" ↔ part.1 = "initializer" := by
        intro part hpart
        rw [normalKey]
        split
        · next h => exact iff_of_true rfl h.1
        · next h =>
          have hne : part.1 ≠ "value" := fun heq => hkeys (heq ▸ List.mem_map_of_mem hpart)
          exact iff_of_false hne fun heq => h ⟨heq, rfl⟩
      have hgone :
          "initializer" ∉ (parts.mapNodes (normalKey false) Node.normalise).map Prod.fst := by
        intro hmem
        rw [Parts.mapNodes, List.map_map] at hmem
        obtain ⟨part, -, hpart⟩ := List.mem_map.mp hmem
        exact normalKey_false_ne_initializer hpart
      have hnone' : (parts.mapNodes (normalKey false) Node.normalise).single? "initializer" =
          none := by
        rw [Parts.single?, lookup?_eq_none hgone]
      rw [Option.isSome_none, Parts.single?_mapNodes hrename, hnone', hnone, Option.or_none,
        Option.none_or]

/-- **One node**: what is made of the normal form of an object is what is made of the object, with
method kinds in normal form. -/
theorem makeNode_normalise (h : d.get? "value" = none → "value" ∉ parts.map Prod.fst) :
    d.normalise.makeNode (d.normalParts parts) = (d.makeNode parts).map Node.normalise := by
  have hnodes : ((d.normalParts parts).flatMap fun part => part.2.toList) =
      (parts.flatMap fun part => part.2.toList).map Node.normalise := Parts.nodes_mapNodes
  have hmethodKind :
      (if d.kind == .methodDefinition then (d.normalise.getD "kind").erase else .null) =
        (if d.kind == .methodDefinition then (d.getD "kind").erase else .null).normaliseUnder
          "kind" := by
    rw [getD_normalise rfl (by decide), Value.erase_normaliseUnder]
    split
    · rfl
    · exact (Value.normaliseUnder_of_isAtom (by decide) rfl).symm
  rw [makeNode, makeNode, nameWith_normalise, argumentsWith_normalise, calleeWith_normalise,
    memberWith_normalise, hnodes, sourceOrder_normalise]
  generalize sourceOrder (parts.flatMap fun part => part.2.toList) = ordered
  rcases d.nameWith parts with _ | name
  · rfl
  rcases d.argumentsWith parts with _ | arguments
  · rfl
  rcases d.calleeWith parts with _ | callee
  · rfl
  rcases d.memberWith parts with _ | member
  · rfl
  rcases ordered with _ | children
  · rfl
  refine congrArg Except.ok ?_
  rw [Node.normalise, Node.mapMethodKind_eq]
  simp only [Children.mapMethodKind, Child.mapMethodKinds_nodes, kind_normalise,
    modifiers_normalise, span_normalise, hmethodKind, bodyWith_normalise, value_normalParts h]
  rw [single?_normalParts rfl, single?_normalParts rfl, many_normalParts rfl]
  rfl

end NodeDocument

/-! ### The agenda -/

/-- The table of made nodes, with method kinds in normal form. -/
def Built.normalise (built : Built) : Built := built.map fun entry => (entry.1, entry.2.normalise)

/-- The table in normal form has the **nodes** in normal form. -/
theorem Built.get?_normalise (built : Built) (label : ℕ) :
    built.normalise.get? label = (built.get? label).map Node.normalise := by
  induction built with
  | nil => rfl
  | cons entry rest ih =>
      rw [normalise, List.map_cons, get?, get?, ← normalise, ih]
      split <;> rfl

/-- The parts of an object in normal form are its parts **in normal form**. -/
theorem Built.partsOf_normalise (built : Built) (d : NodeDocument) :
    built.normalise.partsOf d.normalise = d.normalParts (built.partsOf d) := by
  have hpart : ∀ part : Part NodeDocument,
      (part.map NodeDocument.normalise).filterMap (fun child => built.normalise.get? child.label) =
        (part.filterMap fun child => built.get? child.label).map (Part.map Node.normalise) := by
    intro part
    cases part with
    | one c =>
        have hget := built.get?_normalise c.label
        change (built.normalise.get? c.label).map Part.one = _
        rw [hget, Part.filterMap, Option.map_map, Option.map_map]
        rfl
    | many cs =>
        have hget : ∀ c : NodeDocument, built.normalise.get? c.normalise.label =
            (built.get? c.label).map Node.normalise := fun c => built.get?_normalise c.label
        rw [Part.map, Part.filterMap, Part.filterMap, List.filterMap_map]
        simp only [Function.comp_def, hget, Option.map_some, Part.map, List.map_filterMap]
  rw [partsOf, NodeDocument.parts_normalise, List.filterMap_map, partsOf,
    NodeDocument.normalParts, Parts.mapNodes, List.map_filterMap]
  refine List.filterMap_congr fun part _ => ?_
  simp only [Function.comp_def, hpart, Option.map_map]

/-- There are no parts under a key that an object does not have. -/
theorem Built.notMem_keys_partsOf {built : Built} {d : NodeDocument} {key : String}
    (h : d.get? key = none) : key ∉ (built.partsOf d).map Prod.fst := by
  intro hkey
  have hparts : key ∈ d.parts.map Prod.fst := keys_filterValues_subset
    (fun _ part => part.filterMap fun child => built.get? child.label) d.parts hkey
  rw [NodeDocument.parts, NodeDocument.partsOf_eq] at hparts
  exact notMem_keys_of_lookup? h (keys_filterValues_subset _ _ hparts)

/-- A task for the normal form of an object. -/
def Task.normalise : Task → Task
  | .openUp d => .openUp d.normalise
  | .close d => .close d.normalise

/-- The agenda is worked off **in step** with that of the normal forms. -/
theorem runAgenda_normalise (agenda : List Task) (built : Built) :
    runAgenda (agenda.map Task.normalise) built.normalise =
      (runAgenda agenda built).map Built.normalise := by
  have hmade : ∀ (built : Built) (d : NodeDocument),
      (built.normalise.get? d.normalise.label).isSome = (built.get? d.label).isSome := by
    intro built d
    rw [built.get?_normalise]
    exact Option.isSome_map
  fun_induction runAgenda agenda built with
  | case1 built =>
      rw [List.map_nil, runAgenda]
      rfl
  | case2 built d rest hbuilt ih =>
      rw [List.map_cons, Task.normalise, runAgenda, hmade, if_pos hbuilt, ih]
  -- an object to open up: its children come first, in normal form as well
  | case3 built d rest hbuilt ih =>
      have hchildren : d.normalise.children.reverse.map Task.openUp =
          (d.children.reverse.map Task.openUp).map Task.normalise := by
        rw [NodeDocument.children_normalise, ← List.map_reverse, List.map_map, List.map_map]
        rfl
      rw [List.map_cons, Task.normalise, runAgenda, hmade, if_neg hbuilt, hchildren, ← ih,
        List.map_append, List.map_cons, Task.normalise]
  | case4 built d rest hbuilt ih =>
      rw [List.map_cons, Task.normalise, runAgenda, hmade, if_pos hbuilt, ih]
  | case5 built d rest hbuilt fault hfault =>
      have hmake : d.normalise.makeNode (built.normalise.partsOf d.normalise) = .error fault := by
        rw [built.partsOf_normalise, NodeDocument.makeNode_normalise Built.notMem_keys_partsOf,
          hfault]
        rfl
      rw [List.map_cons, Task.normalise, runAgenda, hmade, if_neg hbuilt, hmake]
      rfl
  -- an object to close: its node is made from the parts in normal form
  | case6 built d rest hbuilt n hn ih =>
      have hmake : d.normalise.makeNode (built.normalise.partsOf d.normalise) =
          .ok n.normalise := by
        rw [built.partsOf_normalise, NodeDocument.makeNode_normalise Built.notMem_keys_partsOf, hn]
        rfl
      rw [List.map_cons, Task.normalise, runAgenda, hmade, if_neg hbuilt, hmake]
      exact ih

/-! ### Trees without change -/

namespace Node

/-- What a node refers to is smaller than the node. -/
theorem sizeOf_lt_of_mem_referents {n m : Node} (h : m ∈ n.referents) : sizeOf m < sizeOf n := by
  have hchildren : m ∈ n.childNodes → sizeOf m < sizeOf n.children := by
    intro hm
    have hlt := List.sizeOf_lt_of_mem
      (List.mem_map_of_mem hm : Child.node m ∈ n.childNodes.map .node)
    rw [Child.node.sizeOf_spec] at hlt
    rw [children_of_mem_childNodes hm, Children.sequence.sizeOf_spec]
    omega
  have hlist : ∀ ns : List Node, m ∈ ns → sizeOf m < sizeOf ns := fun _ => List.sizeOf_lt_of_mem
  have hoption : ∀ o : Option Node, o = some m → sizeOf m < sizeOf o := by
    rintro _ rfl
    simp
  simp only [referents, List.mem_append, Option.mem_toList] at h
  obtain ⟨label, kind, name, methodKind, modifiers, span, id, body, params, arguments, callee,
    receiver, member, value, children⟩ := n
  rw [Node.mk.sizeOf_spec]
  dsimp only at h hchildren
  rcases h with (((((((h | h) | h) | h) | h) | h) | h) | h) | h
  · have := hoption id h
    omega
  · have := hlist body h
    omega
  · have := hlist params h
    omega
  · have := hlist arguments h
    omega
  · have := hoption callee h
    omega
  · have := hoption receiver h
    omega
  · have := hoption member h
    omega
  · have := hoption value h
    omega
  · have := hchildren h
    omega

/-- What holds of a node whenever it holds of all that the node refers to holds of every node. -/
@[elab_as_elim]
theorem induction_referents {P : Node → Prop} (h : ∀ n : Node, (∀ m ∈ n.referents, P m) → P n)
    (n : Node) : P n :=
  h n fun m _ => induction_referents h m
termination_by sizeOf n
decreasing_by exact sizeOf_lt_of_mem_referents ‹_›

/-- A change that no method kind of a tree undergoes **leaves the tree as it is**. -/
theorem mapMethodKind_eq_self {f : Json → Json} {n : Node}
    (h : n.Throughout fun m => f m.methodKind = m.methodKind ∧ m.HasChildNodes) :
    n.mapMethodKind f = n := by
  induction n using induction_referents with
  | h n ih =>
      have hreferent : ∀ m ∈ n.referents, m.mapMethodKind f = m := fun m hm =>
        ih m hm (h.referent hm)
      have hlist : ∀ ns : List Node, (∀ m ∈ ns, m ∈ n.referents) →
          ns.map (mapMethodKind f) = ns := by
        intro ns hns
        rw [List.map_congr_left fun m hm => hreferent m (hns m hm), List.map_id']
      have hoption : ∀ o : Option Node, (∀ m, o = some m → m ∈ n.referents) →
          o.map (mapMethodKind f) = o := by
        intro o ho
        cases o with
        | none => rfl
        | some m => rw [Option.map_some, hreferent m (ho m rfl)]
      obtain ⟨hkind, children, hchildren⟩ := h.self
      have hsequence : n.children.mapMethodKind f = n.children := by
        rw [hchildren, Children.mapMethodKind, Child.mapMethodKinds_nodes, hlist children]
        intro m hm
        rw [← childNodes_eq_of_children hchildren] at hm
        exact List.mem_append_right _ hm
      rw [mapMethodKind_eq, hkind, hsequence, hlist n.body, hlist n.params, hlist n.arguments,
        hoption n.id, hoption n.callee, hoption n.receiver, hoption n.member, hoption n.value]
      case h =>
        cases n
        rfl
      all_goals
        intro m hm
        simp only [referents, List.mem_append, Option.mem_toList]
        tauto

end Node

/-! ### Trees -/

/-- A value that describes no node **is its own** normal form. -/
theorem Value.normalise_eq_self {v : Document} (h : v.node? = none) : v.normalise = v := by
  cases v with
  | obj label members =>
      have hnot : areOfNode members = false := by
        rw [node?] at h
        rw [areOfNode]
        rcases hlookup : lookup? "type" members with _ | w
        · rfl
        · cases w <;> first | rfl | simp [hlookup] at h
      rw [normalise, hnot, if_neg Bool.false_ne_true]
  | _ => rfl

/-- A value that contributes no nodes **is in normal form**. -/
theorem NodeDocument.normaliseUnder_getD_eq_self {d : NodeDocument} {key : String}
    (hskipped : isSkipped key = false) (h : d.nodesAt key = []) :
    (d.getD key).normaliseUnder key = d.getD key := by
  rw [nodesAt] at h
  rw [Value.normaliseUnder_of_part hskipped]
  generalize d.getD key = v at h
  cases v with
  | arr items =>
      have hitems := List.filterMap_eq_nil_iff.mp h
      dsimp only
      rw [List.map_congr_left fun v hv => Value.normalise_eq_self (hitems v hv), List.map_id']
  | obj label members => exact Value.normalise_eq_self (Option.toList_eq_nil_iff.mp h)
  | _ => rfl

/-- The tree of a normal form is the tree of the document with **method kinds in normal form**. -/
theorem ofDocument_normalise_eq_map (document : Document) :
    Node.ofDocument document.normalise = (Node.ofDocument document).map Node.normalise := by
  rw [Node.ofDocument, Node.ofDocument, Value.node?_normalise]
  cases document.node? with
  | none => rfl
  | some top =>
      have hrun : runAgenda [.openUp top.normalise] [] =
          (runAgenda [.openUp top] []).map Built.normalise := runAgenda_normalise [.openUp top] []
      have hget : ∀ built : Built, built.normalise.get? top.normalise.label =
          (built.get? top.label).map Node.normalise := fun built => built.get?_normalise top.label
      rw [Option.map_some]
      dsimp only
      rw [hrun]
      cases runAgenda [.openUp top] [] with
      | error fault => rfl
      | ok built =>
          dsimp only [Except.map]
          rw [hget]
          cases built.get? top.label <;> rfl

/-- A tree whose methods are of **plain kinds** is in normal form. -/
theorem normalise_of_ofDocument {document : Document} {root : Node}
    (hkinds : ∀ top d, document.node? = some top → top.Reaches d → d.kind = .methodDefinition →
      d.nodesAt "kind" = [])
    (h : Node.ofDocument document = .ok root) : root.normalise = root := by
  refine Node.mapMethodKind_eq_self (throughout_of_ofDocument ?_ h)
  intro top d parts n htop hd hn
  have hmade := NodeDocument.made_of_makeNode hn
  refine ⟨?_, (sound_of_makeNode hn).children⟩
  rw [hmade.methodKind]
  by_cases hkind : d.kind = .methodDefinition
  · rw [hkind, beq_self_eq_true, if_pos rfl, ← Value.erase_normaliseUnder,
      NodeDocument.normaliseUnder_getD_eq_self rfl (hkinds top d htop hd hkind)]
  · rw [if_neg (by simpa using hkind)]
    exact Value.normaliseUnder_of_isAtom (by decide) rfl

/-- **The tree of a normal form.** A document and its normal form both have no tree, for the same
fault, or both have one, and the two trees differ in nothing but the method kinds, which are in
normal form in the second. If no method of the document has nodes for its kind, the trees are the
same. -/
theorem ofDocument_normalise (document : Document) :
    Node.ofDocument document.normalise = (Node.ofDocument document).map Node.normalise ∧
    ((∀ top d, document.node? = some top → top.Reaches d → d.kind = .methodDefinition →
        d.nodesAt "kind" = []) →
      Node.ofDocument document.normalise = Node.ofDocument document) := by
  refine ⟨ofDocument_normalise_eq_map document, fun hkinds => ?_⟩
  rw [ofDocument_normalise_eq_map]
  cases h : Node.ofDocument document with
  | error fault => rfl
  | ok root => exact congrArg Except.ok (normalise_of_ofDocument hkinds h)

/-- A method whose kind is a node, of an older type. -/
def nodeKindMethod : Document :=
  .obj 0 [("type", .str "MethodDefinition"), ("kind", .obj 1 [("type", .str "ClassProperty")])]

/-- The method kind is what the document holds, so it is **not the same** in the normal form. -/
theorem ofDocument_normalise_ne_nodeKindMethod :
    (Node.ofDocument nodeKindMethod).map (fun n => (n.methodKind.getD "type").str?) =
      .ok (some "ClassProperty") ∧
    (Node.ofDocument nodeKindMethod.normalise).map (fun n => (n.methodKind.getD "type").str?) =
      .ok (some "PropertyDefinition") ∧
    Node.ofDocument nodeKindMethod.normalise ≠ Node.ofDocument nodeKindMethod := by
  have hkind : (Node.ofDocument nodeKindMethod).map (fun n => (n.methodKind.getD "type").str?) =
      .ok (some "ClassProperty") := by decide +kernel
  have hkind' : (Node.ofDocument nodeKindMethod.normalise).map
      (fun n => (n.methodKind.getD "type").str?) = .ok (some "PropertyDefinition") := by
    decide +kernel
  refine ⟨hkind, hkind', fun heq => ?_⟩
  rw [heq, hkind] at hkind'
  exact absurd hkind' (by decide)

/-- A class in the words of an older parser, with tokens and a parent of which no nodes could be
made. -/
def olderClass : Document :=
  .obj 0 [("type", .str "ClassDeclaration"),
    ("tokens", .arr [.obj 1 [("type", .str "Identifier")]]),
    ("body", .obj 2 [("type", .str "ClassBody"), ("body", .arr [
      .obj 3 [("type", .str "ClassProperty"), ("parent", .obj 4 [("type", .str "CallExpression")]),
        ("initializer", .obj 5 [("type", .str "Literal")])],
      .obj 6 [("type", .str "MethodDefinition"), ("kind", .str "constructor")]])])]

/-- The same class in present words. -/
def presentClass : Document :=
  .obj 0 [("type", .str "ClassDeclaration"),
    ("body", .obj 2 [("type", .str "ClassBody"), ("body", .arr [
      .obj 3 [("type", .str "PropertyDefinition"), ("value", .obj 5 [("type", .str "Literal")])],
      .obj 6 [("type", .str "MethodDefinition"), ("kind", .str "constructor")]])])]

/-- Both classes have one tree. -/
theorem ofDocument_olderClass :
    olderClass.normalise = presentClass ∧
    (∀ top d, olderClass.node? = some top → top.Reaches d → d.kind = .methodDefinition →
      d.nodesAt "kind" = []) ∧
    ∃ root, Node.ofDocument olderClass = .ok root ∧ Node.ofDocument presentClass = .ok root := by
  have hnormal : olderClass.normalise = presentClass := by rfl
  have hkinds : ∀ top d, olderClass.node? = some top → top.Reaches d → d.kind = .methodDefinition →
      d.nodesAt "kind" = [] := by
    intro top d htop hd hkind
    have hall : ∀ top ∈ olderClass.node?, ∀ d ∈ top.postOrder,
        d.kind = .methodDefinition → (d.nodesAt "kind").isEmpty := by decide +kernel
    exact List.isEmpty_iff.mp (hall top htop d (NodeDocument.mem_postOrder.mpr hd) hkind)
  obtain ⟨root, hroot, -⟩ := map_eq_ok.mp (by decide +kernel :
    (Node.ofDocument olderClass).map Node.kind = .ok .classDeclaration)
  refine ⟨hnormal, hkinds, root, hroot, ?_⟩
  rw [← hnormal, (ofDocument_normalise olderClass).2 hkinds, hroot]

end TreeLint
