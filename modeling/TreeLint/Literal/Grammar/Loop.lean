import TreeLint.Literal.Grammar.Argument

/-!
# The Grammar of Loops

Loops inside expressions, and what they give values to.
-/

namespace TreeLint.Literal

namespace Grammar

open Parsing

variable (call : Rule → Parsing Expr)

/-- What can follow a part of something that a loop gives values to. -/
def targetTail : Parsing Unit := firstOf [word "(", word "[", word "."]

/-- Several things that a loop gives values to. -/
def starTargets : Parsing Expr := firstOf [
  do
    let e ← call .starTarget
    absent (word ",")
    return e,
  do
    let _ ← call .starTarget
    let _ ← many (do word ","; call .starTarget)
    let _ ← option (word ",")
    return .part]

/-- Something that a loop gives values to. -/
def starTarget : Parsing Expr := firstOf [
  do
    word "*"
    absent (word "*")
    call .starTarget,
  call .targetWithStar]

/-- Such things between brackets. -/
def targetTuple : Parsing Unit := firstOf [
  do
    let _ ← call .starTarget
    let _ ← oneOrMore (do word ","; call .starTarget)
    let _ ← option (word ","),
  do
    let _ ← call .starTarget
    word ","]

/-- A name, a part of something, or either between brackets. -/
def targetWithStar : Parsing Expr := firstOf [
  do
    let _ ← call .targetPrimary
    word "."
    let _ ← name
    absent targetTail
    return .part,
  do
    let _ ← name
    return .part,
  do
    word "("
    let _ ← call .targetWithStar
    word ")"
    return .part,
  do
    word "("
    let _ ← option (targetTuple call)
    word ")"
    return .part]

/-- Something that is asked for a part. -/
def targetPrimary : Parsing Expr := do
  let followed (p : Parsing Expr) : Parsing Expr := do
    let e ← p
    ahead targetTail
    return e
  let e ← followed (call .atom)
  let s ← get
  withTails (s.tokens.size + s.stream.rest.length + 1) (fun e => followed (primaryTail call e)) e

/-- A loop over something that gives no values. -/
def badTarget : Parsing Expr := do
  let _ ← option (word "async")
  word "for"
  let e ← starExpressions call
  match e.badTarget? with
  | some e => broken (.assignment e.described)
  | none => failure

/-- A loop and its conditions. Once it is known to be one, nothing else is tried. -/
def forClause : Parsing Expr := do
  let head : Parsing Unit := do
    word "for"
    let _ ← starTargets call
    word "in"
  match ← option (firstOf [do word "async"; head, head]) with
  | some _ =>
    let _ ← call .disjunction
    let _ ← many (do word "if"; call .disjunction)
    return .part
  | none => whenStrict (badTarget call)

/-- Loops one inside the other. -/
def forClauses : Parsing Expr := do
  let _ ← oneOrMore (forClause call)
  return .part

/-- A loop over something with a star, or over several things without brackets. -/
def badComprehension : Parsing Expr := firstOf [
  do
    firstOf [word "[", word "(", word "\x7b"]
    let _ ← starredExpression call
    let _ ← call .forClauses
    broken .starredInComprehension,
  do
    firstOf [word "[", word "\x7b"]
    let _ ← call .starNamedExpression
    word ","
    let _ ← starNamedExpressions call
    let _ ← call .forClauses
    broken .bareTarget,
  do
    firstOf [word "[", word "\x7b"]
    let _ ← call .starNamedExpression
    word ","
    let _ ← call .forClauses
    broken .bareTarget]

/-- A generator. -/
def generator : Parsing Expr := firstOf [
  do
    word "("
    let _ ← firstOf [assignmentExpression call, unnamedExpression call]
    let _ ← call .forClauses
    word ")"
    return .generator,
  whenStrict (badComprehension call)]

end Grammar

end TreeLint.Literal
