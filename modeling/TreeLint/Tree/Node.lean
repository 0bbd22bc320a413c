import TreeLint.Json.Value
import TreeLint.Tree.Malformed

/-!
# Syntax Nodes

A `Node` is one construct of a source text: its kind, a name where it has one, its
modifiers and place, the nodes that play a named part in it, and all its children in
source order. Only the children are walked; the named parts of a tree made from a document
are found among them or below them.

A tree put together by hand may be wrong in its children, so `Children` and `Child` admit
values that are no nodes. Trees made from documents never contain one.
-/

namespace TreeLint

/-- The place of a node in its source. Every field is the value that the document holds,
`null` when it is unknown: character offsets from zero, lines from one, columns from
zero. -/
structure Span where
  start : Json := .null
  stop : Json := .null
  line : Json := .null
  column : Json := .null
  deriving Inhabited

/-- The modifiers of a class or of a class member. -/
structure Modifiers where
  isAbstract : Bool := false
  isStatic : Bool := false
  isReadonly : Bool := false
  accessibility : Option String := none
  isComputed : Bool := false
  deriving DecidableEq, Repr, Inhabited

/-- One child of a node: a node, or a value of another type that should have been one. -/
inductive Child (α : Type) where
  | node (n : α)
  | foreign (type : String)

/-- The children of a node: a sequence, or something that is none. -/
inductive Children (α : Type) where
  | sequence (items : List (Child α))
  | invalid

/-- A **syntax node**. Nodes with one label are one node, met in several places. -/
structure Node where
  label : Nat := 0
  kind : Kind
  name : Option String := none
  /-- What a method is for, such as `constructor`; any value that the document holds. -/
  methodKind : Json := .null
  modifiers : Modifiers := {}
  span : Span := {}
  id : Option Node := none
  body : List Node := []
  params : List Node := []
  arguments : List Node := []
  callee : Option Node := none
  /-- The object of a member expression. -/
  receiver : Option Node := none
  /-- The property of a member expression. -/
  member : Option Node := none
  value : Option Node := none
  children : Children Node := .sequence []

instance : Inhabited Node := ⟨{ kind := .other }⟩

/-- The root of a tree, or a value of another type that should have been one. -/
abbrev Root := Child Node

namespace Node

/-- Whether the node is an identifier. -/
def isIdentifier (n : Node) : Bool := n.kind == .identifier

/-- Whether the node is the identifier of this name. -/
def isNamed (n : Node) (name : String) : Bool := n.isIdentifier && n.name == some name

/-- Whether the node is an inline function. -/
def isFunction (n : Node) : Bool := n.kind.isFunction

/-- The callee of a call or `new` expression. -/
def requireCallee (n : Node) : Except Malformed Node :=
  match n.callee with
  | some callee => .ok callee
  | none => .error (.noCallee n.kind)

/-- The property that a member expression accesses. -/
def requireMember (n : Node) : Except Malformed Node :=
  match n.member, n.receiver with
  | some member, some _ => .ok member
  | _, _ => .error .noMember

end Node

/-- The node that a child of a node of some kind is. -/
def Child.require (kind : Kind) : Child Node → Except Malformed Node
  | .node child => .ok child
  | .foreign type => .error (.foreignChild kind type)

/-- The children of a node, when they are a sequence of nodes and of nothing else. -/
def Node.requireChildren (n : Node) : Except Malformed (List Node) :=
  match n.children with
  | .invalid => .error (.childrenNotASequence n.kind)
  | .sequence items => items.mapM (Child.require n.kind)

mutual

/-- How many visits a walk below and at a node makes. -/
def Node.weight : Node → Nat
  | ⟨_, _, _, _, _, _, _, _, _, _, _, _, _, _, children⟩ => 1 + Children.weight children

/-- The weight of the children of a node. -/
def Children.weight : Children Node → Nat
  | .sequence items => Child.weightAll items
  | .invalid => 0

/-- The weight of a list of children. -/
def Child.weightAll : List (Child Node) → Nat
  | [] => 0
  | child :: rest => Child.weight child + Child.weightAll rest

/-- The weight of one child. -/
def Child.weight : Child Node → Nat
  | .node n => n.weight
  | .foreign _ => 0

end

end TreeLint
