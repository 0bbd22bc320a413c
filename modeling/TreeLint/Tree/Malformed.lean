import TreeLint.Tree.Kind

/-!
# Malformed Trees

Everything that can be wrong with the shape of a document or of a tree, and the one place
where each fault gets its words.
-/

namespace TreeLint

/-- What is wrong with a tree. -/
inductive Malformed where
  /-- The document as a whole is not a node. -/
  | notANode
  /-- An identifier without a name. -/
  | unnamedIdentifier
  /-- The arguments of a call or `new` expression, whose type word is given, are no list. -/
  | argumentsNotAList (type : String)
  /-- A node of this kind lacks the callee that was asked for. -/
  | noCallee (kind : Kind)
  /-- A member expression lacks its object or its property. -/
  | noMember
  /-- The root is a value of this type instead of a node. -/
  | foreignRoot (type : String)
  /-- The children of a node of this kind are no sequence of nodes. -/
  | childrenNotASequence (kind : Kind)
  /-- A child of a node of this kind is a value of this type instead of a node. -/
  | foreignChild (kind : Kind) (type : String)
  deriving DecidableEq, Repr

/-- The text of the fault. -/
def Malformed.message : Malformed → String
  | .notANode => "Tree document must be an object with a 'type' field"
  | .unnamedIdentifier => "Identifier node has no name"
  | .argumentsNotAList type => s!"{type} arguments must be a list"
  | .noCallee kind => s!"{kind.name} node has no callee"
  | .noMember => "MemberExpression node needs an object and a property"
  | .foreignRoot type => s!"Tree root must be a SyntaxNode, got {type}"
  | .childrenNotASequence kind => s!"{kind.name} node children must be a tuple"
  | .foreignChild kind type => s!"{kind.name} node has a child of type {type}"

end TreeLint
