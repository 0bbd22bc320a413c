import Std.Data.HashMap
import TreeLint.Literal.Expr
import TreeLint.Literal.Token

/-!
# Parsing with Ordered Choice

A `Parsing` step goes over tokens and may fail, in which case the next choice starts where it
started. Tokens are taken off the text when they are first looked at, and a fault among them ends
everything. What a rule of the grammar gave at some place is remembered.

A text that cannot be parsed is gone over again with `isStrict` set, and then rules take part that
match what is wrong and say so.
-/

namespace TreeLint.Literal

/-- The rules of the grammar that others go back to. -/
inductive Rule where
  | expression
  | starExpression
  | namedExpression
  | starNamedExpression
  | badNamedExpression
  | disjunction
  | conjunction
  | inversion
  | comparison
  | bitwiseOr
  | bitwiseXor
  | bitwiseAnd
  | shift
  | sum
  | term
  | factor
  | power
  | awaited
  | primary
  | atom
  | texts
  | generator
  | arguments
  | argumentList
  | keywordArguments
  | forClauses
  | starTarget
  | targetWithStar
  | targetPrimary
  deriving DecidableEq, Repr, Hashable

/-- Whether what a rule gives is remembered. -/
def Rule.isRemembered : Rule → Bool
  | .namedExpression | .starNamedExpression | .comparison | .power | .atom | .generator
  | .argumentList | .keywordArguments | .forClauses => false
  | _ => true

/-- Where parsing is. -/
structure ParseState where
  stream : TokenStream
  /-- The tokens that were looked at. -/
  tokens : Array Token := #[]
  /-- The number of the next token. -/
  place : Nat := 0
  /-- What rules gave at places, and the places after that. -/
  memory : Std.HashMap (Rule × Nat) (Option (Expr × Nat)) := ∅
  /-- Whether the rules for what is wrong take part. -/
  isStrict : Bool := false

/-- A step of parsing. -/
abbrev Parsing := OptionT (ExceptT Fault (StateM ParseState))

namespace Parsing

variable {α : Type}

/-- End everything. -/
def fault (f : Fault) : Parsing α := OptionT.lift (throw f)

/-- Tell which rule is broken. -/
def broken (f : GrammarFault) : Parsing α := fault (.grammar f)

/-- The place of the next token. -/
def place : Parsing Nat := return (← get).place

/-- Go to a place. -/
def goTo (place : Nat) : Parsing Unit := modify fun s => { s with place }

/-- The next token. -/
def peek : Parsing Token := do
  let s ← get
  match s.tokens[s.place]? with
  | some t => return t
  | none =>
    match s.stream.next with
    | .ok (t, stream) =>
      set { s with stream, tokens := s.tokens.push t }
      return t
    | .error f => fault (.token f)

/-- The next token, if it is of some kind, and the place after it. -/
def expect (p : Token → Bool) : Parsing Token := do
  let t ← peek
  if p t then
    modify fun s => { s with place := s.place + 1 }
    return t
  else failure

/-- A token of a kind. -/
def kind (k : TokenKind) : Parsing Token := expect fun t => t.kind = k

/-- A keyword or an operator. -/
def word (w : String) : Parsing Unit := do
  let _ ← expect fun t => (t.kind = .keyword || t.kind = .operator) && t.chars = w.toList

/-- The first of some choices that does not fail. -/
def firstOf : List (Parsing α) → Parsing α
  | [] => failure
  | p :: rest => do
    let start ← place
    p <|> (do goTo start; firstOf rest)

/-- A choice that may fail without harm. -/
def option (p : Parsing α) : Parsing (Option α) := firstOf [some <$> p, pure none]

/-- Whether a choice does not fail here. No token is passed. -/
def sees (p : Parsing α) : Parsing Bool := do
  let start ← place
  let found ← option p
  goTo start
  return found.isSome

/-- Go on only if a choice does not fail here. -/
def ahead (p : Parsing α) : Parsing Unit := do if !(← sees p) then failure

/-- Go on only if a choice fails here. -/
def absent (p : Parsing α) : Parsing Unit := do if ← sees p then failure

/-- A choice as often as it does not fail, at most `fuel` times. -/
def manyUpTo (fuel : Nat) (p : Parsing α) : Parsing (List α) := do
  match fuel with
  | 0 => return []
  | fuel + 1 =>
    match ← option p with
    | some a => return a :: (← manyUpTo fuel p)
    | none => return []

/-- A choice as often as it does not fail. Every time takes a token, and there are no more of
them than the text still has characters, besides those that were looked at and the end. -/
def many (p : Parsing α) : Parsing (List α) := do
  let s ← get
  manyUpTo (s.tokens.size + s.stream.rest.length + 1) p

/-- A choice once or more. -/
def oneOrMore (p : Parsing α) : Parsing (List α) := return (← p) :: (← many p)

/-- A choice once or more, with something in between. -/
def separated (p : Parsing α) (between : Parsing Unit) : Parsing (List α) := do
  let first ← p
  return first :: (← many (do between; p))

/-- A rule for what is wrong. -/
def whenStrict (p : Parsing α) : Parsing α := do
  if (← get).isStrict then p else failure

/-- A choice in which the rules for what is wrong take no part. -/
def leniently (p : Parsing α) : Parsing α := do
  let isStrict := (← get).isStrict
  modify fun s => { s with isStrict := false }
  let found ← option p
  modify fun s => { s with isStrict }
  match found with
  | some a => return a
  | none => failure

/-- What a rule gives here, from memory if it was asked before. -/
def remembered (r : Rule) (p : Parsing Expr) : Parsing Expr := do
  let start ← place
  let _ ← peek
  match (← get).memory[(r, start)]? with
  | some (some (e, stop)) => goTo stop; return e
  | some none => failure
  | none =>
    let found ← option p
    let stop ← place
    let entry := found.map fun e => (e, stop)
    modify fun s => { s with memory := s.memory.insert (r, start) entry }
    match found with
    | some e => return e
    | none => failure

end Parsing

end TreeLint.Literal
