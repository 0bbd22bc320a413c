import TreeLint.Literal.Fault

/-!
# Expressions

What tokens write. Of most expressions it only matters that they are there; those that can stand
for a value are kept with their parts.
-/

namespace TreeLint.Literal

/-- A value that a single token writes. -/
inductive Constant where
  | null
  | truth (b : Bool)
  | ellipsis
  | whole (n : Nat)
  | decimal
  | imaginary
  | text
  | bytes
  deriving DecidableEq, Repr, Inhabited

/-- An expression, or a part of one. -/
inductive Expr where
  | name (id : String)
  | constant (c : Constant)
  /-- A text with expressions in it. -/
  | format
  | tuple (items : List Expr)
  | set (items : List Expr)
  /-- A mapping; entries without a key are those of another mapping. -/
  | dict (entries : List (Option Expr × Expr))
  | starred (e : Expr)
  | unary (op : String) (e : Expr)
  | binary (op : String) (left right : Expr)
  /-- Two expressions of which one may do. -/
  | junction
  /-- A comparison, and whether it asks for an item of a collection. -/
  | comparison (isMembership : Bool) (left : Expr)
  | call (function : Expr) (arguments : List Expr)
  | attribute
  | lambda
  | conditional
  | generator
  | setComprehension
  | dictComprehension
  /-- An expression that is named in passing. -/
  | named
  | yielded
  | awaited
  /-- An argument with a name, or the entries of a mapping as such arguments. -/
  | keyword (name : Option String)
  /-- A part that is no expression. -/
  | part
  deriving Inhabited

namespace Expr

/-- The words for what an expression is. -/
def described : Expr → String
  | .name _ => "name"
  | .constant .null => "None"
  | .constant (.truth true) => "True"
  | .constant (.truth false) => "False"
  | .constant .ellipsis => "ellipsis"
  | .constant _ => "literal"
  | .format => "f-string expression"
  | .tuple _ => "tuple"
  | .set _ => "set display"
  | .dict _ => "dict literal"
  | .starred _ => "starred"
  | .unary .. | .binary .. | .junction => "expression"
  | .comparison .. => "comparison"
  | .call .. => "function call"
  | .attribute => "attribute"
  | .lambda => "lambda"
  | .conditional => "conditional expression"
  | .generator => "generator expression"
  | .setComprehension => "set comprehension"
  | .dictComprehension => "dict comprehension"
  | .named => "named expression"
  | .yielded => "yield expression"
  | .awaited => "await expression"
  | .keyword _ | .part => "expression"

mutual

/-- The part of an expression that no value can be given to where a loop would do so, if there is
one. The words after a name that ask for its collection make the two look like a comparison. -/
def badTarget? : Expr → Option Expr
  | .name _ | .attribute => none
  | .starred e => badTarget? e
  | .tuple items => badTargets? items
  | .comparison isMembership left => if isMembership then badTarget? left else none
  | e => some e

/-- The first such part of several expressions. -/
def badTargets? : List Expr → Option Expr
  | [] => none
  | e :: rest =>
    match badTarget? e with
    | some e => some e
    | none => badTargets? rest

end

end Expr

end TreeLint.Literal
