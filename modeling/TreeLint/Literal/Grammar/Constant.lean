import TreeLint.Literal.Format
import TreeLint.Literal.Parsing

/-!
# The Grammar of Constants

Tokens that stand for a value by themselves, and names.
-/

namespace TreeLint.Literal

namespace Grammar

open Parsing

/-- Whether a text is a whole number in a base of its own. -/
def hasBase : List Char → Bool
  | '0' :: c :: _ => ['x', 'X', 'o', 'O', 'b', 'B'].contains c
  | _ => false

/-- The value of digits in a base. -/
def wholeIn (base : Nat) (cs : List Char) : Nat :=
  cs.foldl (fun n c => base * n + (hexValue? c).getD 0) 0

/-- The constant that a number writes. -/
def numberConstant (chars : List Char) : Except ConstantFault Constant :=
  let cs := chars.filter (· != '_')
  if hasBase cs then
    let base := match cs with
      | '0' :: 'x' :: _ | '0' :: 'X' :: _ => 16
      | '0' :: 'o' :: _ | '0' :: 'O' :: _ => 8
      | _ => 2
    .ok (.whole (wholeIn base (cs.drop 2)))
  else if cs.getLast? = some 'j' || cs.getLast? = some 'J' then .ok .imaginary
  else if cs.all Char.isDigit then
    if cs.all (· == '0') then .ok (.whole 0)
    else if digitLimit < cs.length then .error (.tooManyDigits cs.length)
    else .ok (.whole (wholeIn 10 cs))
  else .ok .decimal

/-- A constant, or the fault of its token. -/
def constantOr (c : Except ConstantFault Constant) : Parsing Expr :=
  match c with
  | .ok c => return .constant c
  | .error f => fault (.constant f)

/-- A name. -/
def name : Parsing String := return String.ofList (← kind .name).chars

/-- Words that are names except in a few places. -/
def softKeywords : List String := ["_", "case", "match"]

/-- A name that is such a word, or the start of one. -/
def softKeyword : Parsing Unit := do
  let _ ← expect fun t =>
    t.kind = .name && softKeywords.any fun word => t.chars.isPrefixOf word.toList

/-- Things that once were statements and are called now. -/
def formerStatements : List String := ["print", "exec"]

/-- Whether an expression names something that once was a statement. -/
def isFormerStatement : Expr → Bool
  | .name id => formerStatements.contains id
  | _ => false

/-- Texts side by side. `inner` gives the fault of an expression inside of one. -/
def texts (inner : List Char → Option String) : Parsing Expr := do
  let tokens ← oneOrMore (kind .text)
  match quotations inner (tokens.map Token.chars) with
  | .error f => fault (.constant f)
  | .ok (_, true) => return .format
  | .ok (isBytes, false) => return .constant (if isBytes then .bytes else .text)

end Grammar

end TreeLint.Literal
