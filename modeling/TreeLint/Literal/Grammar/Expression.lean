import TreeLint.Literal.Grammar.Parameter

/-!
# The Grammar of Expressions

Expressions with conditions, with names given in passing, and with commas between them. Equals
signs and missing commas among them are found here.
-/

namespace TreeLint.Literal

namespace Grammar

open Parsing

variable (call : Rule → Parsing Expr)

/-- An expression with a condition, or without one. -/
def conditional : Parsing Expr := firstOf [
  do
    let _ ← call .disjunction
    word "if"
    let _ ← call .disjunction
    word "else"
    let _ ← call .expression
    return .conditional,
  call .disjunction,
  lambda call]

/-- Two expressions side by side between brackets, or a condition without its other side. -/
def badExpression : Parsing Expr := firstOf [
  do
    absent (firstOf [
      do let _ ← kind .name; let _ ← kind .text,
      softKeyword])
    let first ← call .disjunction
    let _ ← leniently (conditional call)
    let s ← get
    let depth := (s.tokens[s.place - 1]?.map Token.depth).getD 0
    if isFormerStatement first || depth = 0 then failure else broken .missingComma,
  do
    let _ ← call .disjunction
    word "if"
    let _ ← call .disjunction
    absent (firstOf [word "else", word ":"])
    broken .missingElse]

/-- Expressions with commas between them, some of them starred, as one. -/
def starExpressions : Parsing Expr := firstOf [
  do
    let first ← call .starExpression
    let rest ← oneOrMore (do word ","; call .starExpression)
    let _ ← option (word ",")
    return .tuple (first :: rest),
  do
    let first ← call .starExpression
    word ","
    return .tuple [first],
  call .starExpression]

/-- A call without parentheses of what once was a statement. -/
def badFormerStatement : Parsing Expr := do
  let id ← name
  absent (word "(")
  let _ ← starExpressions call
  if formerStatements.contains id then broken (.missingParentheses id) else failure

/-- An expression. -/
def expression : Parsing Expr := firstOf [
  whenStrict (badExpression call),
  whenStrict (badFormerStatement call),
  conditional call]

/-- A starred expression, or one without a star. -/
def starExpression : Parsing Expr := firstOf [
  do word "*"; return .starred (← call .bitwiseOr),
  call .expression]

/-- An expression that is named in passing. -/
def assignmentExpression : Parsing Expr := do
  let _ ← name
  word ":="
  let _ ← call .expression
  return .named

/-- An expression without a sign after it that would name it. -/
def unnamedExpression : Parsing Expr := do
  let e ← call .expression
  absent (word ":=")
  return e

/-- The brackets around expressions with commas between them. -/
def tuple : Parsing Expr := do
  word "("
  let items ← option (do
    let first ← call .starNamedExpression
    word ","
    let rest ← option (do
      let rest ← separated (call .starNamedExpression) (word ",")
      let _ ← option (word ",")
      return rest)
    return first :: rest.getD [])
  word ")"
  return .tuple (items.getD [])

/-- An equals sign where none can stand. -/
def badNamedExpression : Parsing Expr := firstOf [
  do
    let e ← call .expression
    word ":="
    let _ ← call .expression
    broken (.namedBy e.described),
  do
    let _ ← name
    word "="
    let _ ← call .bitwiseOr
    absent (firstOf [word "=", word ":="])
    broken .equalsAfterName,
  do
    absent (firstOf [tuple call, call .generator, do word "True"; return .part,
      do word "None"; return .part, do word "False"; return .part])
    let e ← call .bitwiseOr
    word "="
    let _ ← call .bitwiseOr
    absent (firstOf [word "=", word ":="])
    broken (.equalsAfter e.described)]

/-- An expression that may be named in passing. -/
def namedExpression : Parsing Expr := firstOf [
  assignmentExpression call,
  whenStrict (call .badNamedExpression),
  unnamedExpression call]

/-- A starred expression, or one that may be named in passing. -/
def starNamedExpression : Parsing Expr := firstOf [
  do word "*"; return .starred (← call .bitwiseOr),
  call .namedExpression]

/-- Such expressions with commas between them. -/
def starNamedExpressions : Parsing (List Expr) := do
  let items ← separated (call .starNamedExpression) (word ",")
  let _ ← option (word ",")
  return items

end Grammar

end TreeLint.Literal
