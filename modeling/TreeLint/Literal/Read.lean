import TreeLint.Literal.Grammar
import TreeLint.Literal.Value

/-!
# Reading a Literal

`read` says whether a text is one literal and, if it is none, why. A text that does not follow the
grammar is gone over a second time, with the rules for what is wrong. What they find gives way to
a token further on that cannot be made, and to a bracket that stays open from an earlier line.
-/

namespace TreeLint.Literal

/-- A text in which all lines end with one character. -/
def plainLines : List Char → List Char
  | '\r' :: '\n' :: rest => '\n' :: plainLines rest
  | '\r' :: rest => '\n' :: plainLines rest
  | c :: rest => c :: plainLines rest
  | [] => []

/-- Go over tokens from a state on. -/
def attempt (start : Parsing Expr) (s : ParseState) : Except Fault (Option Expr) × ParseState :=
  start.run.run.run s

/-- The first fault among the tokens that are left, and the stream there. -/
def tokenFault? : Nat → TokenStream → Option (TokenFault × TokenStream)
  | 0, _ => none
  | fuel + 1, s =>
    match s.next with
    | .error f => some (f, s)
    | .ok (t, s) => if t.kind = .finish then none else tokenFault? fuel s

/-- The fault that counts more than a broken rule: one among the tokens that are left, or a
bracket that is open there and stands on a line before the last token that was looked at. -/
def overriding? (s : ParseState) : Option TokenFault :=
  match tokenFault? (2 * s.stream.rest.length + 2) s.stream with
  | none => none
  | some (f, stream) =>
    if !f.isQuiet then some f
    else
      match stream.brackets, s.tokens.back? with
      | (opening, line) :: _, some t => if line < t.line then some (.neverClosed opening) else none
      | _, _ => none

/-- Whether a token is known to end only by the character after it. -/
def Token.needsNext (t : Token) : Bool :=
  match t.kind with
  | .text => (splitQuotation t.chars).2.isEmpty && t.chars.getLast? != t.chars[t.chars.length - 3]?
  | .operator => t.chars.length < 3
  | .newline | .indent | .unindent => false
  | .name | .keyword | .number | .finish => true

/-- Whether the end of the text was met while tokens were taken. -/
def ParseState.metEnd (s : ParseState) : Bool :=
  s.stream.rest.isEmpty && s.tokens.back?.any Token.needsNext

/-- A fault with what counts more than it. Once the end was met, nothing else is looked for. -/
def settle (s : ParseState) : Fault → Fault
  | .token f => .token f
  | f => if s.metEnd then f else ((overriding? s).map Fault.token).getD f

/-- Why a text that follows no rule is wrong; `s` is the state after the first attempt. -/
def diagnose (start : Parsing Expr) (s : ParseState) : Fault :=
  match attempt start { s with place := 0, memory := ∅, isStrict := true } with
  | (.error f, s) => settle s f
  | (.ok _, s') =>
    match s.tokens.back?.map Token.kind with
    | some .indent => .grammar .unexpectedIndent
    | some .unindent => .grammar .unexpectedUnindent
    | _ => ((overriding? s').map Fault.token).getD (.grammar .invalid)

/-- The expression at the start of a text. -/
def expressionFrom (start : Parsing Expr) (text : List Char) : Except Fault Expr :=
  match attempt start { stream := { rest := text } } with
  | (.ok (some e), _) => .ok e
  | (.error f, s) => .error (settle s f)
  | (.ok none, s) => .error (diagnose start s)

/-- How many rules can stand one inside the other while a text is parsed: no more than a few dozen
without a token among them. -/
def ruleDepth (text : List Char) : Nat := 32 * (text.length + 4)

/-- The fault of an expression inside a text that is put in brackets. Texts with expressions can
stand inside of it again, at most `depth` of them one inside the other. -/
def innerFault? : Nat → List Char → Option String
  | 0, _ => none
  | depth + 1, text =>
    let start := Grammar.starExpressions (Grammar.parse (innerFault? depth) (ruleDepth text))
    match expressionFrom start text with
    | .ok _ => none
    | .error f => some f.messageInFormat

/-- The expression that a whole text is. -/
def expression (text : List Char) : Except Fault Expr :=
  let text := plainLines text
  let parse := Grammar.parse (innerFault? text.length) (ruleDepth text)
  expressionFrom (Grammar.whole parse) text

/-- Whether a text is a **literal**. -/
def read (text : List Char) : Except Fault Unit := do
  if text.contains '\x00' then throw (.value .nullCharacter)
  match (← expression text).valued with
  | .ok _ => return ()
  | .error f => throw (.value f)

end TreeLint.Literal
