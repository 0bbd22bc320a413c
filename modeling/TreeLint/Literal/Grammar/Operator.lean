import TreeLint.Literal.Grammar.Constant

/-!
# The Grammar of Operators

From those that bind least to those that bind most.
-/

namespace TreeLint.Literal

namespace Grammar

open Parsing

variable (call : Rule → Parsing Expr)

/-- Operands with a word between them, or a single one. -/
def junction (operand : Rule) (w : String) : Parsing Expr := firstOf [
  do
    let _ ← call operand
    let _ ← oneOrMore (do word w; call operand)
    return .junction,
  call operand]

/-- A negation, or none. -/
def inversion : Parsing Expr := firstOf [
  do word "not"; return .unary "not" (← call .inversion),
  call .comparison]

/-- A comparison with what is before: whether it asks for an item of a collection. -/
def comparisonTail : Parsing Bool :=
  let tail (words : List String) (isMembership : Bool) : Parsing Bool := do
    words.forM word
    let _ ← call .bitwiseOr
    return isMembership
  firstOf [tail ["=="] false, tail ["!="] false, tail ["<="] false, tail ["<"] false,
    tail [">="] false, tail [">"] false, tail ["not", "in"] false, tail ["in"] true,
    tail ["is", "not"] false, tail ["is"] false]

/-- A comparison, or none. -/
def comparison : Parsing Expr := firstOf [
  do
    let left ← call .bitwiseOr
    let tails ← oneOrMore (comparisonTail call)
    return .comparison (tails.headD false) left,
  call .bitwiseOr]

/-- Operands with operators between them, taken together from the left. -/
def leftChain (operand : Rule) (operators : List String) : Parsing Expr := do
  let first ← call operand
  let rest ← many (do
    let op ← firstOf (operators.map fun op => do word op; return op)
    return (op, ← call operand))
  return rest.foldl (fun left (op, right) => .binary op left right) first

/-- A sign before an operand, or none. -/
def factor : Parsing Expr := firstOf [
  do word "+"; return .unary "+" (← call .factor),
  do word "-"; return .unary "-" (← call .factor),
  do word "~"; return .unary "~" (← call .factor),
  call .power]

/-- A power, or none. -/
def power : Parsing Expr := firstOf [
  do
    let left ← call .awaited
    word "**"
    return .binary "**" left (← call .factor),
  call .awaited]

/-- Something that is waited for, or not. -/
def awaited : Parsing Expr := firstOf [
  do
    word "await"
    let _ ← call .primary
    return .awaited,
  call .primary]

end Grammar

end TreeLint.Literal
