import TreeLint.Literal.Grammar.Constant

/-!
# The Grammar of Parameters

A function without a name has parameters, with defaults or without. A slash ends those that are
given by their places alone, and a star starts those that are given by their names alone.
-/

namespace TreeLint.Literal

namespace Grammar

open Parsing

variable (call : Rule → Parsing Expr)

/-- Between a parameter and what comes next: a comma, or nothing at the end. -/
def afterParameter : Parsing Unit := firstOf [word ",", ahead (word ":")]

/-- The value that a parameter has if none is given. -/
def parameterDefault : Parsing Unit := firstOf [
  do
    word "="
    let _ ← call .expression,
  whenStrict do
    word "="
    ahead (firstOf [word ")", word ","])
    broken .missingDefault]

/-- A parameter without a default. -/
def plainParameter : Parsing Unit := do
  let _ ← name
  afterParameter

/-- A parameter with a default. -/
def defaultParameter : Parsing Unit := do
  let _ ← name
  parameterDefault call
  afterParameter

/-- A parameter with a default or without. -/
def anyParameter : Parsing Unit := do
  let _ ← name
  let _ ← option (parameterDefault call)
  afterParameter

/-- Parameters without defaults, and the slash after them. -/
def plainSlash : Parsing Unit := do
  let _ ← oneOrMore plainParameter
  word "/"
  afterParameter

/-- Parameters of which the last have defaults, and the slash after them. -/
def defaultSlash : Parsing Unit := do
  let _ ← many plainParameter
  let _ ← oneOrMore (defaultParameter call)
  word "/"
  afterParameter

/-- Something wrong with two stars. -/
def badDoubleStar : Parsing Unit := firstOf [
  do
    word "**"
    let _ ← name
    word "="
    broken .doubleStarDefault,
  do
    word "**"
    let _ ← name
    word ","
    let _ ← name
    broken .afterDoubleStar,
  do
    word "**"
    let _ ← name
    word ","
    firstOf [word "*", word "**", word "/"]
    broken .afterDoubleStar]

/-- The parameter for all other arguments with names. -/
def doubleStar : Parsing Unit := firstOf [
  whenStrict badDoubleStar,
  do
    word "**"
    plainParameter]

/-- Something wrong with a star. -/
def badStar : Parsing Unit := firstOf [
  do
    word "*"
    firstOf [
      word ":",
      do
        word ","
        firstOf [word ":", word "**"]]
    broken .bareStar,
  do
    word "*"
    let _ ← name
    word "="
    broken .starDefault,
  do
    word "*"
    firstOf [plainParameter, word ","]
    let _ ← many (anyParameter call)
    word "*"
    firstOf [plainParameter, word ","]
    broken .starTwice]

/-- A star and the parameters after it. -/
def starred : Parsing Unit := firstOf [
  whenStrict (badStar call),
  do
    word "*"
    plainParameter
    let _ ← many (anyParameter call)
    let _ ← option doubleStar,
  do
    word "*"
    word ","
    let _ ← oneOrMore (anyParameter call)
    let _ ← option doubleStar,
  doubleStar]

/-- Parameters in a wrong order. -/
def badParameters : Parsing Unit := firstOf [
  do
    let _ ← many plainParameter
    firstOf [
      defaultSlash call,
      do let _ ← oneOrMore (defaultParameter call)]
    plainParameter
    broken .plainAfterDefault,
  do
    let _ ← many plainParameter
    word "("
    let _ ← separated name (word ",")
    let _ ← option (word ",")
    word ")"
    broken .parenthesizedParameters,
  do
    word "/"
    word ","
    broken .slashFirst,
  do
    firstOf [plainSlash, defaultSlash call]
    let _ ← many (anyParameter call)
    word "/"
    broken .slashTwice,
  do
    let _ ← option (firstOf [plainSlash, defaultSlash call])
    let _ ← many (anyParameter call)
    word "*"
    firstOf [word ",", plainParameter]
    let _ ← many (anyParameter call)
    word "/"
    broken .slashAfterStar,
  do
    let _ ← oneOrMore (anyParameter call)
    word "/"
    word "*"
    broken .missingCommaAfterSlash]

/-- Parameters: some without defaults before others with them, up to a slash or not, and those
after a star. -/
def parameters : Parsing Unit := firstOf [
  whenStrict (badParameters call),
  do
    plainSlash
    let _ ← many plainParameter
    let _ ← many (defaultParameter call)
    let _ ← option (starred call),
  do
    defaultSlash call
    let _ ← many (defaultParameter call)
    let _ ← option (starred call),
  do
    let _ ← oneOrMore plainParameter
    let _ ← many (defaultParameter call)
    let _ ← option (starred call),
  do
    let _ ← oneOrMore (defaultParameter call)
    let _ ← option (starred call),
  starred call]

/-- A function without a name. -/
def lambda : Parsing Expr := do
  word "lambda"
  let _ ← option (parameters call)
  word ":"
  let _ ← call .expression
  return .lambda

end Grammar

end TreeLint.Literal
