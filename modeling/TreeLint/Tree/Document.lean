import TreeLint.Json.Value
import TreeLint.Number.Total
import TreeLint.Tree.Kind

/-!
# Node Documents

A **node document** is an object with a text under `type`. Its other members describe one
node: scalars are its attributes, and node documents among the members' values, or directly
in a list there, are its children. Members that hold places in the source or that point back
up the tree (`isSkipped`) have no children.

The one fact about sizes is `total_weight_children_lt`: the children of a node document weigh
less than the document, which is why every way of walking through a document ends.
-/

namespace TreeLint

/-- An object of a document that describes a node. -/
structure NodeDocument where
  label : Nat
  type : String
  members : List (String × Document)
  deriving Inhabited

/-- A document as a node document, if it is one. -/
def Value.node? : Document → Option NodeDocument
  | .obj label members =>
    match lookup? "type" members with
    | some (.str type) => some ⟨label, type, members⟩
    | _ => none
  | _ => none

/-- Keys that hold places in the source, or objects that belong to other nodes. -/
def isSkipped (key : String) : Bool :=
  ["type", "loc", "range", "start", "end", "parent", "tokens", "comments"].contains key

/-- What a member contributes to a node: one node, or a list of nodes. -/
inductive Part (α : Type) where
  | one (a : α)
  | many (as : List α)

namespace Part

variable {α β : Type}

/-- The nodes of a part, in order. -/
def toList : Part α → List α
  | .one a => [a]
  | .many as => as

/-- The part made of the images of the nodes that have one. -/
def filterMap (f : α → Option β) : Part α → Option (Part β)
  | .one a => (f a).map .one
  | .many as => some (.many (as.filterMap f))

/-- The part that a value contributes: the node that it is, or the nodes that it lists. -/
def ofValue? (v : Document) : Option (Part NodeDocument) :=
  match v.node? with
  | some d => some (.one d)
  | none =>
    match v with
    | .arr items => some (.many (items.filterMap Value.node?))
    | _ => none

end Part

namespace NodeDocument

/-- The value under a key. -/
def get? (d : NodeDocument) (key : String) : Option Document := lookup? key d.members

/-- The value under a key, `null` when there is none. -/
def getD (d : NodeDocument) (key : String) : Document := (d.get? key).getD .null

/-- The parts that the members contribute, each under its key. -/
def partsOf : List (String × Document) → List (String × Part NodeDocument)
  | [] => []
  | (key, v) :: rest =>
    if isSkipped key then partsOf rest
    else match Part.ofValue? v with
      | some part => (key, part) :: partsOf rest
      | none => partsOf rest

/-- The parts of a node document, each under its key. -/
def parts (d : NodeDocument) : List (String × Part NodeDocument) := partsOf d.members

/-- The **children** of a node document, in the order in which they are written. -/
def children (d : NodeDocument) : List NodeDocument := d.parts.flatMap fun part => part.2.toList

/-- The weight of the object. -/
def weight (d : NodeDocument) : Nat := 1 + Value.weightMembers d.members

end NodeDocument

/-! ### Children weigh less than their parent -/

/-- A description of a node weighs **as much as its value**. -/
theorem Value.weight_of_node? {v : Document} {d : NodeDocument} (h : v.node? = some d) :
    d.weight = v.weight := by
  cases v with
  | obj label members =>
    simp only [Value.node?] at h
    split at h
    · obtain rfl := Option.some.inj h
      simp [NodeDocument.weight, Value.weight]
    · cases h
  | _ => simp [Value.node?] at h

/-- The nodes in a list weigh **no more than the list**. -/
theorem total_weight_items_le (items : List Document) :
    total ((items.filterMap Value.node?).map NodeDocument.weight) ≤ Value.weightItems items := by
  induction items with
  | nil => simp [Value.weightItems]
  | cons v rest ih =>
    cases h : v.node? with
    | none => simp only [List.filterMap_cons, h, Value.weightItems]; omega
    | some d =>
      have := Value.weight_of_node? h
      simp only [List.filterMap_cons, h, Value.weightItems, List.map_cons, total_cons]
      omega

/-- The nodes of a part weigh **no more than its value**. -/
theorem total_weight_part_le {v : Document} {part : Part NodeDocument}
    (h : Part.ofValue? v = some part) :
    total (part.toList.map NodeDocument.weight) ≤ v.weight := by
  simp only [Part.ofValue?] at h
  split at h
  · next d hd =>
    obtain rfl := Option.some.inj h
    simp [Part.toList, Value.weight_of_node? hd]
  · split at h
    · next items _ =>
      obtain rfl := Option.some.inj h
      have := total_weight_items_le items
      simp only [Part.toList, Value.weight]
      omega
    · cases h

/-- The nodes of an object weigh **no more than its members**. -/
theorem total_weight_parts_le (members : List (String × Document)) :
    total (((NodeDocument.partsOf members).flatMap fun part => part.2.toList).map
      NodeDocument.weight) ≤ Value.weightMembers members := by
  induction members with
  | nil => simp [NodeDocument.partsOf]
  | cons m rest ih =>
    obtain ⟨key, v⟩ := m
    simp only [NodeDocument.partsOf, Value.weightMembers]
    split
    · omega
    · split
      · next part hpart =>
        have := total_weight_part_le hpart
        simp only [List.flatMap_cons, List.map_append, total_append]
        omega
      · omega

/-- The children of a node document together weigh less than the document. -/
theorem NodeDocument.total_weight_children_lt (d : NodeDocument) :
    total (d.children.map NodeDocument.weight) < d.weight := by
  have := total_weight_parts_le d.members
  simp only [NodeDocument.children, NodeDocument.parts, NodeDocument.weight]
  omega

end TreeLint
