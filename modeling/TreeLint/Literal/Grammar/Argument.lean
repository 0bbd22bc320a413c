import TreeLint.Literal.Grammar.Expression

/-!
# The Grammar of Calls

Something can be called with arguments: those that are given by their places first, then those
that are given by their names.
-/

namespace TreeLint.Literal

namespace Grammar

open Parsing

variable (call : Rule → Parsing Expr)

/-- What follows something that is called or asked for a part. -/
def primaryTail (e : Expr) : Parsing Expr := firstOf [
  do
    word "."
    let _ ← name
    return .attribute,
  do return .call e [← call .generator],
  do
    word "("
    let arguments ← option (call .arguments)
    word ")"
    return match arguments with
      | some (.call _ arguments) => .call e arguments
      | _ => .call e []]

/-- Something, and what follows it as often as something does, at most `fuel` times. -/
def withTails (fuel : Nat) (tail : Expr → Parsing Expr) (e : Expr) : Parsing Expr := do
  match fuel with
  | 0 => return e
  | fuel + 1 =>
    match ← option (tail e) with
    | some e => withTails fuel tail e
    | none => return e

/-- Something that may be called or asked for a part. -/
def primary : Parsing Expr := do
  let e ← call .atom
  let s ← get
  withTails (s.tokens.size + s.stream.rest.length + 1) (primaryTail call) e

/-- A starred argument. -/
def starredExpression : Parsing Expr := do
  word "*"
  return .starred (← call .expression)

/-- An equals sign in an argument after something other than a name. -/
def badKeyword : Parsing Expr := firstOf [
  do
    let w ← firstOf (["True", "False", "None"].map fun w => do word w; return w)
    word "="
    broken (.assignment w),
  do
    let _ ← name
    word "="
    let _ ← call .expression
    let _ ← call .forClauses
    broken .equalsAfterName,
  do
    absent (do let _ ← name; word "=")
    let _ ← call .expression
    word "="
    broken .equalsInArgument]

/-- An argument with a name. -/
def namedArgument : Parsing Expr := do
  let id ← name
  word "="
  let _ ← call .expression
  return .keyword (some id)

/-- An argument with a name, or a starred one. -/
def keywordOrStarred : Parsing Expr := firstOf [
  whenStrict (badKeyword call),
  namedArgument call,
  starredExpression call]

/-- An argument with a name, or one with two stars. -/
def keywordOrDoubleStarred : Parsing Expr := firstOf [
  whenStrict (badKeyword call),
  namedArgument call,
  do
    word "**"
    let _ ← call .expression
    return .keyword none]

/-- Arguments with names, from the first one on. -/
def keywordArguments : Parsing Expr := firstOf [
  do
    let first ← separated (keywordOrStarred call) (word ",")
    word ","
    let second ← separated (keywordOrDoubleStarred call) (word ",")
    return .call .part (first ++ second),
  do return .call .part (← separated (keywordOrStarred call) (word ",")),
  do return .call .part (← separated (keywordOrDoubleStarred call) (word ","))]

/-- The items of an argument list. -/
def itemsOf : Expr → List Expr
  | .call _ items => items
  | _ => []

/-- A list of arguments. -/
def argumentList : Parsing Expr := firstOf [
  do
    let first ← separated (firstOf [
      starredExpression call,
      do
        let e ← firstOf [assignmentExpression call, unnamedExpression call]
        absent (word "=")
        return e]) (word ",")
    let second ← option (do word ","; call .keywordArguments)
    return .call .part (first ++ (second.map itemsOf).getD []),
  call .keywordArguments]

/-- Whether an argument is given by its place. -/
def isPositional : Expr → Bool
  | .keyword _ => false
  | _ => true

/-- Whether an argument is the entries of a mapping. -/
def isUnpacked : Expr → Bool
  | .keyword none => true
  | _ => false

/-- Arguments in a wrong order, or a generator without brackets among others. -/
def badArguments : Parsing Expr := firstOf [
  do
    let _ ← call .argumentList
    word ","
    word "*"
    broken .starredAfterUnpacking,
  do
    let _ ← call .expression
    let _ ← call .forClauses
    word ","
    let _ ← option (firstOf [
      call .argumentList,
      do
        let _ ← call .expression
        call .forClauses])
    broken .bareGenerator,
  do
    let _ ← name
    word "="
    let _ ← call .expression
    let _ ← call .forClauses
    broken .equalsAfterName,
  do
    let items := itemsOf (← call .argumentList)
    let _ ← call .forClauses
    if (items.filter isPositional).length ≤ 1 then failure else broken .bareGenerator,
  do
    let _ ← call .argumentList
    word ","
    let _ ← call .expression
    let _ ← call .forClauses
    broken .bareGenerator,
  do
    let items := itemsOf (← call .argumentList)
    word ","
    let _ ← call .argumentList
    broken (if items.any isUnpacked then .positionalAfterUnpacking else .positionalAfterKeyword)]

/-- The arguments of a call. -/
def arguments : Parsing Expr := firstOf [
  do
    let items ← call .argumentList
    let _ ← option (word ",")
    ahead (word ")")
    return items,
  whenStrict (badArguments call)]

end Grammar

end TreeLint.Literal
