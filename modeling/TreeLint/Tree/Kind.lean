/-!
# Node Kinds

The kinds of syntax node that the rules tell apart. Everything else is `other`: it is
walked through but never inspected.
-/

namespace TreeLint

/-- The kind of a syntax node. -/
inductive Kind where
  | program
  | classDeclaration
  | classBody
  | methodDefinition
  | propertyDefinition
  | callExpression
  | memberExpression
  | identifier
  | functionExpression
  | arrowFunctionExpression
  | newExpression
  | other
  deriving DecidableEq, Repr, Inhabited

namespace Kind

/-- The name of a kind in messages and reports. -/
def name : Kind → String
  | .program => "Program"
  | .classDeclaration => "ClassDeclaration"
  | .classBody => "ClassBody"
  | .methodDefinition => "MethodDefinition"
  | .propertyDefinition => "PropertyDefinition"
  | .callExpression => "CallExpression"
  | .memberExpression => "MemberExpression"
  | .identifier => "Identifier"
  | .functionExpression => "FunctionExpression"
  | .arrowFunctionExpression => "ArrowFunctionExpression"
  | .newExpression => "NewExpression"
  | .other => "Other"

/-- All kinds. -/
def all : List Kind :=
  [.program, .classDeclaration, .classBody, .methodDefinition, .propertyDefinition,
    .callExpression, .memberExpression, .identifier, .functionExpression,
    .arrowFunctionExpression, .newExpression, .other]

/-- The list has **every kind**. -/
theorem mem_all (k : Kind) : k ∈ all := by cases k <;> decide

/-- The kind with a given name. -/
def ofName? (name : String) : Option Kind := all.find? fun k => k.name == name

/-- The kind of a document node by its type word. `ClassProperty` is the older word for
`PropertyDefinition`; a word that no rule knows is `other`. -/
def ofType (type : String) : Kind :=
  if type == "ClassProperty" then .propertyDefinition else (ofName? type).getD .other

/-- Whether a node of this kind is a call or a `new` expression, which has a callee and
arguments. -/
def isInvocation : Kind → Bool
  | .callExpression | .newExpression => true
  | _ => false

/-- Whether a node of this kind is an inline function. -/
def isFunction : Kind → Bool
  | .functionExpression | .arrowFunctionExpression => true
  | _ => false

end Kind

end TreeLint
