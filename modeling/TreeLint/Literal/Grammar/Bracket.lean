import TreeLint.Literal.Grammar.Loop

/-!
# The Grammar of Brackets

What stands between brackets: groups, mappings and sets, and loops that give them.
-/

namespace TreeLint.Literal

namespace Grammar

open Parsing

variable (call : Rule → Parsing Expr)

/-- Something that a generator gives. -/
def yielded : Parsing Expr := firstOf [
  do
    word "yield"
    word "from"
    let _ ← call .expression
    return .yielded,
  do
    word "yield"
    let _ ← option (starExpressions call)
    return .yielded]

/-- A star between brackets. -/
def badGroup : Parsing Expr := firstOf [
  do
    word "("
    let _ ← starredExpression call
    word ")"
    broken .starredInGroup,
  do
    word "("
    word "**"
    let _ ← call .expression
    word ")"
    broken .doubleStarredInGroup]

/-- One expression between brackets. -/
def group : Parsing Expr := firstOf [
  do
    word "("
    let e ← firstOf [yielded call, call .namedExpression]
    word ")"
    return e,
  whenStrict (badGroup call)]

/-- A key and its value. -/
def pair : Parsing (Option Expr × Expr) := do
  let key ← call .expression
  word ":"
  return (some key, ← call .expression)

/-- A key and its value, or the entries of another mapping. -/
def entry : Parsing (Option Expr × Expr) := firstOf [
  do word "**"; return (none, ← call .bitwiseOr),
  pair call]

/-- A value that is missing or starred. -/
def badValue : Parsing Expr := firstOf [
  do
    let _ ← call .expression
    word ":"
    word "*"
    let _ ← call .bitwiseOr
    broken .starredDictValue,
  do
    let _ ← call .expression
    word ":"
    ahead (firstOf [word "\x7d", word ","])
    broken .missingDictValue]

/-- A key without its colon, or with something wrong after it. -/
def badPair : Parsing Expr := firstOf [
  do
    let _ ← call .expression
    absent (word ":")
    broken .missingDictColon,
  badValue call]

/-- A mapping. What is wrong with its entries is always looked for. -/
def dictDisplay : Parsing Expr := firstOf [
  do
    word "\x7b"
    let entries ← option (do
      let entries ← separated (entry call) (word ",")
      let _ ← option (word ",")
      return entries)
    word "\x7d"
    return .dict (entries.getD []),
  do
    word "\x7b"
    let e ← firstOf [
      do
        let _ ← separated (entry call) (word ",")
        word ","
        badPair call,
      badValue call]
    word "\x7d"
    return e]

/-- A set. -/
def setDisplay : Parsing Expr := do
  word "\x7b"
  let items ← starNamedExpressions call
  word "\x7d"
  return .set items

/-- A mapping that loops give. -/
def dictComprehension : Parsing Expr := firstOf [
  do
    word "\x7b"
    let _ ← pair call
    let _ ← call .forClauses
    word "\x7d"
    return .dictComprehension,
  whenStrict (do
    word "\x7b"
    word "**"
    let _ ← call .bitwiseOr
    let _ ← call .forClauses
    word "\x7d"
    broken .doubleStarredInComprehension)]

/-- A set that loops give. -/
def setComprehension : Parsing Expr := firstOf [
  do
    word "\x7b"
    let _ ← call .namedExpression
    let _ ← call .forClauses
    word "\x7d"
    return .setComprehension,
  whenStrict (badComprehension call)]

/-- What has no parts outside of brackets. -/
def atom : Parsing Expr := firstOf [
  do return .name (← name),
  do word "True"; return .constant (.truth true),
  do word "False"; return .constant (.truth false),
  do word "None"; return .constant .null,
  do ahead (kind .text); call .texts,
  do constantOr (numberConstant (← kind .number).chars),
  do ahead (word "("); firstOf [tuple call, group call, call .generator],
  do
    ahead (word "\x7b")
    firstOf [dictDisplay call, setDisplay call, dictComprehension call, setComprehension call],
  do word "..."; return .constant .ellipsis]

end Grammar

end TreeLint.Literal
