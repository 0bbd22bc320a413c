import TreeLint.Literal.Grammar.Bracket
import TreeLint.Literal.Grammar.Operator

/-!
# The Grammar of a Literal

In the modules below this one each definition is one rule, with its choices in the order in which
they are tried. A rule goes back to others through `call`; `parse` ties the knot. Texts can hold
expressions, and `inner` gives the faults of those.

Rules with `bad` in their names match what is wrong. They take part when a text has turned out to
have no parse, and the first that matches says what is broken.
-/

namespace TreeLint.Literal

namespace Grammar

open Parsing

section Rules

variable (inner : List Char → Option String) (call : Rule → Parsing Expr)

/-- A rule by its name. -/
def rule : Rule → Parsing Expr
  | .expression => expression call
  | .starExpression => starExpression call
  | .namedExpression => namedExpression call
  | .starNamedExpression => starNamedExpression call
  | .badNamedExpression => badNamedExpression call
  | .disjunction => junction call .conjunction "or"
  | .conjunction => junction call .inversion "and"
  | .inversion => inversion call
  | .comparison => comparison call
  | .bitwiseOr => leftChain call .bitwiseXor ["|"]
  | .bitwiseXor => leftChain call .bitwiseAnd ["^"]
  | .bitwiseAnd => leftChain call .shift ["&"]
  | .shift => leftChain call .sum ["<<", ">>"]
  | .sum => leftChain call .term ["+", "-"]
  | .term => leftChain call .factor ["*", "/", "//", "%", "@"]
  | .factor => factor call
  | .power => power call
  | .awaited => awaited call
  | .primary => primary call
  | .atom => atom call
  | .texts => texts inner
  | .generator => generator call
  | .arguments => arguments call
  | .argumentList => argumentList call
  | .keywordArguments => keywordArguments call
  | .forClauses => forClauses call
  | .starTarget => starTarget call
  | .targetWithStar => targetWithStar call
  | .targetPrimary => targetPrimary call

/-- Expressions with commas between them, as one, up to the end. -/
def whole : Parsing Expr := do
  let e ← firstOf [
    do
      let first ← call .expression
      let rest ← oneOrMore (do word ","; call .expression)
      let _ ← option (word ",")
      return .tuple (first :: rest),
    do
      let first ← call .expression
      word ","
      return .tuple [first],
    call .expression]
  let _ ← many (kind .newline)
  let _ ← kind .finish
  return e

end Rules

/-- What a rule gives here, going through no more than `fuel` rules one inside the other. -/
def parse (inner : List Char → Option String) (fuel : Nat) (r : Rule) : Parsing Expr :=
  match fuel with
  | 0 => failure
  | fuel + 1 =>
    let result := rule inner (parse inner fuel) r
    if r.isRemembered then remembered r result else result

end Grammar

end TreeLint.Literal
