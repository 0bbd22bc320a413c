/-!
# YAML Nodes

A document is a graph of nodes. An alias makes a node occur in several places, and a collection
can even contain itself, so collections refer to their parts by number.
-/

namespace TreeLint.Yaml

/-- What a node is a value of. -/
inductive Tag where
  | null
  | bool
  | int
  | float
  | binary
  | timestamp
  | str
  | seq
  | map
  | set
  | omap
  | pairs
  /-- The key of entries that are taken over from another mapping. -/
  | merge
  /-- The key of the value that stands for a whole mapping. -/
  | value
  | other (name : String)
  deriving DecidableEq, Repr

/-- What the names of the tags of YAML itself start with. -/
def coreTagNames : String := "tag:yaml.org,2002:"

/-- The tags of YAML itself, by the ends of their names. -/
def coreTags : List (String × Tag) :=
  [("null", .null), ("bool", .bool), ("int", .int), ("float", .float), ("binary", .binary),
    ("timestamp", .timestamp), ("str", .str), ("seq", .seq), ("map", .map), ("set", .set),
    ("omap", .omap), ("pairs", .pairs), ("merge", .merge), ("value", .value)]

/-- The tag with a given name. -/
def Tag.ofName (name : String) : Tag :=
  match coreTags.find? fun (ending, _) => coreTagNames ++ ending = name with
  | some (_, tag) => tag
  | none => .other name

/-- What a node holds. -/
inductive Content where
  | scalar (text : String)
  | sequence (items : List Nat)
  | mapping (entries : List (Nat × Nat))
  deriving DecidableEq, Repr, Inhabited

/-- A node. -/
structure Node where
  tag : Tag
  content : Content
  deriving DecidableEq, Repr

/-- The nodes of a document by their numbers. -/
structure Graph where
  nodes : Array Node := #[]

/-- The node with a number. -/
def Graph.node? (g : Graph) (id : Nat) : Option Node := g.nodes[id]?

end TreeLint.Yaml
