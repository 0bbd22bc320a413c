import TreeLint.Yaml.Tag

/-!
# YAML Tokens

The tokens of a text carry its structure explicitly: where a line is indented more than the one
before it a collection starts, and where it is indented less one ends. A key token stands before
everything that a colon makes a key, even though only the colon shows that it is one.

A `TokenSearch` finds the tokens of a text from left to right, and no more of them than it is
asked for: `TokenSearch.ready` looks for the next one only. Two things cannot be told from the
next characters alone, and the search keeps what is needed for them:

* **indentation**: the columns of the open block collections. A line that starts further left
  closes those that it is left of;
* **possible keys**: for every open bracket, the last place at which a key may have started. When
  a colon follows on the same line, a key token is put there after the fact, so the token at such
  a place is not ready before it is known whether one does. A place at which a key must start,
  because the line begins in the column of an open mapping, is a fault if no colon follows.

## What is assumed

A colon makes a key of what stands on its line, and at most `keyLimit` characters before it.
-/

namespace TreeLint.Yaml

/-- A token. -/
inductive Token where
  | streamEnd
  | versionDirective (major : Nat)
  | tagDirective (handle expansion : String)
  | otherDirective
  | documentStart
  | documentEnd
  | blockSequenceStart
  | blockMappingStart
  | blockEnd
  | flowSequenceStart
  | flowSequenceEnd
  | flowMappingStart
  | flowMappingEnd
  | blockEntry
  | flowEntry
  | key
  | value
  | alias (name : String)
  | anchor (name : String)
  /-- A tag, with a handle unless it is written out. -/
  | tag (handle : Option String) (suffix : String)
  /-- A scalar, which is plain if it stands without quotes. -/
  | scalar (text : String) (isPlain : Bool)
  deriving DecidableEq, Repr

/-! ### The search -/

/-- A place at which a key may have started: how many tokens stand before it, whether there has
to be a key, and where it is. -/
structure PossibleKey where
  number : Nat
  isRequired : Bool
  index : Nat
  line : Nat
  column : Nat

/-- The state of the search. -/
structure TokenSearch where
  cursor : Cursor
  /-- The tokens that were found and not taken yet. -/
  waiting : List Token := []
  /-- How many tokens were taken. -/
  taken : Nat := 0
  /-- Whether all tokens were found. -/
  isDone : Bool := false
  /-- How many brackets are open. -/
  flow : Nat := 0
  /-- The column of the innermost block collection, or less than any column. -/
  indent : Int := -1
  /-- The columns around it. -/
  indents : List Int := []
  /-- Whether a key may start here without being announced. -/
  allowsKey : Bool := true
  /-- The possible keys by the number of brackets around them. -/
  keys : List (Nat × PossibleKey) := []

/-- The furthest that a key may be from its colon. -/
def keyLimit : Nat := 1024

namespace TokenSearch

/-- Whether the search is between brackets. -/
def inFlow (s : TokenSearch) : Bool := decide (0 < s.flow)

/-- Add a token. -/
def emit (s : TokenSearch) (t : Token) : TokenSearch := { s with waiting := s.waiting ++ [t] }

/-- Put a token before those that were found from the `number`th on. -/
def insertAt (s : TokenSearch) (number : Nat) (t : Token) : TokenSearch :=
  let place := number - s.taken
  { s with waiting := s.waiting.take place ++ t :: s.waiting.drop place }

/-! ### Possible keys -/

/-- Forget the possible keys that no colon can follow any more. -/
def dropStaleKeys (s : TokenSearch) : Except Fault TokenSearch :=
  let isStale (k : PossibleKey) : Bool :=
    k.line != s.cursor.line || decide (keyLimit < s.cursor.index - k.index)
  if s.keys.any fun (_, k) => isStale k && k.isRequired then .error .malformed
  else .ok { s with keys := s.keys.filter fun (_, k) => !isStale k }

/-- Forget the possible key between the innermost brackets. -/
def dropKey (s : TokenSearch) : Except Fault TokenSearch :=
  match s.keys.lookup s.flow with
  | none => .ok s
  | some k =>
    if k.isRequired then .error .malformed
    else .ok { s with keys := s.keys.filter fun (level, _) => level != s.flow }

/-- Remember that a key may start here. -/
def saveKey (s : TokenSearch) : Except Fault TokenSearch := do
  if s.allowsKey then
    let c := s.cursor
    let isRequired := !s.inFlow && s.indent == (c.column : Int)
    let s ← s.dropKey
    let key : PossibleKey := ⟨s.taken + s.waiting.length, isRequired, c.index, c.line, c.column⟩
    return { s with keys := (s.flow, key) :: s.keys }
  else return s

/-! ### Indentation -/

/-- The indentations that are left of a column, and how many are not. -/
def unwound (column : Int) (indent : Int) : List Int → Int × List Int × Nat
  | [] => (indent, [], 0)
  | outer :: rest =>
    if column < indent then
      let (indent, rest, n) := unwound column outer rest
      (indent, rest, n + 1)
    else (indent, outer :: rest, 0)

/-- Close the block collections that a column is left of. Between brackets there are none. -/
def unwind (s : TokenSearch) (column : Int) : TokenSearch :=
  if s.inFlow then s
  else
    let (indent, indents, n) := unwound column s.indent s.indents
    { s with indent, indents, waiting := s.waiting ++ List.replicate n .blockEnd }

/-- Whether a column opens a block collection. -/
def isDeeper (s : TokenSearch) (column : Nat) : Bool := decide (s.indent < (column : Int))

/-- Open a block collection in a column. -/
def indentTo (s : TokenSearch) (column : Nat) : TokenSearch :=
  { s with indent := column, indents := s.indent :: s.indents }

/-- Open a block collection here unless one is open in this column. -/
def openBlock (s : TokenSearch) (t : Token) : TokenSearch :=
  if s.isDeeper s.cursor.column then (s.indentTo s.cursor.column).emit t else s

/-! ### Tokens -/

/-- Pass `n` characters. -/
def pass (s : TokenSearch) (n : Nat) : Except Fault TokenSearch := do
  return { s with cursor := ← s.cursor.skip n }

/-- Blanks, comments and line ends up to the next token. At the start of a line a key may start,
except between brackets. -/
def skipGap (fuel : Nat) (s : TokenSearch) : Except Fault TokenSearch := do
  match fuel with
  | 0 => return s
  | fuel + 1 =>
    let c ← (← s.cursor.skipWhile (· == ' ')).skipComment
    if isBreak (← c.peek) then
      let (_, cursor) ← c.lineBreak
      skipGap fuel { s with cursor, allowsKey := s.allowsKey || !s.inFlow }
    else return { s with cursor := c }

/-- The end of the text. -/
def takeEnd (s : TokenSearch) : Except Fault TokenSearch := do
  let s ← (s.unwind (-1)).dropKey
  return { s with keys := [], isDone := true }.emit .streamEnd

/-- A directive. -/
def takeDirective (s : TokenSearch) : Except Fault TokenSearch := do
  let s ← (s.unwind (-1)).dropKey
  let (directive, cursor) ← scanDirective s.cursor
  let s := { s with cursor, allowsKey := false }
  match directive with
  | .version major => return s.emit (.versionDirective major)
  | .tag handle expansion => return s.emit (.tagDirective handle expansion)
  | .other => return s.emit .otherDirective

/-- The marker at the start or the end of a document. -/
def takeMarker (s : TokenSearch) (t : Token) : Except Fault TokenSearch := do
  let s ← (s.unwind (-1)).dropKey
  return (← { s with allowsKey := false }.pass 3).emit t

/-- An opening bracket. -/
def takeOpening (s : TokenSearch) (t : Token) : Except Fault TokenSearch := do
  let s ← s.saveKey
  return (← { s with flow := s.flow + 1, allowsKey := true }.pass 1).emit t

/-- A closing bracket. -/
def takeClosing (s : TokenSearch) (t : Token) : Except Fault TokenSearch := do
  let s ← s.dropKey
  return (← { s with flow := s.flow - 1, allowsKey := false }.pass 1).emit t

/-- A comma between brackets. -/
def takeFlowEntry (s : TokenSearch) : Except Fault TokenSearch := do
  let s ← s.dropKey
  return (← { s with allowsKey := true }.pass 1).emit .flowEntry

/-- A dash before an item. -/
def takeBlockEntry (s : TokenSearch) : Except Fault TokenSearch := do
  if !s.inFlow && !s.allowsKey then .error .malformed
  let s := if s.inFlow then s else s.openBlock .blockSequenceStart
  let s ← s.dropKey
  return (← { s with allowsKey := true }.pass 1).emit .blockEntry

/-- A question mark before a key. -/
def takeKey (s : TokenSearch) : Except Fault TokenSearch := do
  if !s.inFlow && !s.allowsKey then .error .malformed
  let s := if s.inFlow then s else s.openBlock .blockMappingStart
  let s ← s.dropKey
  return (← { s with allowsKey := !s.inFlow }.pass 1).emit .key

/-- A colon before a value. What may have been a key is one. -/
def takeValue (s : TokenSearch) : Except Fault TokenSearch := do
  match s.keys.lookup s.flow with
  | some k =>
    let s := { s with keys := s.keys.filter fun (level, _) => level != s.flow }
    let s := s.insertAt k.number .key
    let s :=
      if !s.inFlow && s.isDeeper k.column then
        (s.indentTo k.column).insertAt k.number .blockMappingStart
      else s
    return (← { s with allowsKey := false }.pass 1).emit .value
  | none =>
    if !s.inFlow && !s.allowsKey then .error .malformed
    let s := if s.inFlow then s else s.openBlock .blockMappingStart
    let s ← s.dropKey
    return (← { s with allowsKey := !s.inFlow }.pass 1).emit .value

/-- An anchor or an alias. -/
def takeName (s : TokenSearch) (token : String → Token) : Except Fault TokenSearch := do
  let s ← s.saveKey
  let (name, cursor) ← scanAnchorName (← s.cursor.next)
  return { s with cursor, allowsKey := false }.emit (token name)

/-- A tag. -/
def takeTag (s : TokenSearch) : Except Fault TokenSearch := do
  let s ← s.saveKey
  let (handle, suffix, cursor) ← scanTag s.cursor
  return { s with cursor, allowsKey := false }.emit (.tag handle suffix)

/-- A block scalar. -/
def takeBlockScalar (s : TokenSearch) (isFolded : Bool) : Except Fault TokenSearch := do
  let s ← s.dropKey
  let (text, cursor) ← scanBlock isFolded s.indent s.cursor
  return { s with cursor, allowsKey := true }.emit (.scalar (String.ofList text) false)

/-- A quoted scalar. -/
def takeQuoted (s : TokenSearch) (isDouble : Bool) : Except Fault TokenSearch := do
  let s ← s.saveKey
  let (text, cursor) ← scanQuoted isDouble s.cursor
  return { s with cursor, allowsKey := false }.emit (.scalar (String.ofList text) false)

/-- A plain scalar. -/
def takePlain (s : TokenSearch) : Except Fault TokenSearch := do
  let s ← s.saveKey
  let scanned ← scanPlain s.inFlow s.indent s.cursor
  return { s with cursor := scanned.cursor, allowsKey := scanned.crossedLine }.emit
    (.scalar (String.ofList scanned.text) true)

/-- Characters that have a meaning of their own at the start of a token. -/
def indicators : List Char :=
  ['-', '?', ':', ',', '[', ']', '\x7b', '\x7d', '#', '&', '*', '!', '|', '>', '\'', '"', '%', '@',
    '\x60']

/-- Whether a gap or the end of the text comes after the next character. -/
def standsAlone (s : TokenSearch) : Except Fault Bool := do
  return isGapOrEnd (← s.cursor.peekAt 1)

/-- Whether a plain scalar starts here. -/
def startsPlain (s : TokenSearch) : Except Fault Bool := do
  let ch ← s.cursor.peek
  if !(isGapOrEnd ch || indicators.contains ch) then return true
  if ← s.standsAlone then return false
  return ch = '-' || (!s.inFlow && (ch = '?' || ch = ':'))

/-- Whether one of three like characters at the start of a line marks the start or the end of a
document. -/
def isAtMarker (s : TokenSearch) (marker : Char) : Except Fault Bool := do
  if s.cursor.column = 0 && (← s.cursor.peek) = marker then s.cursor.isAtMarker marker
  else return false

/-- The token that starts with the next character, which is none of those at the start of a line
that concern the whole document. -/
def takeInside (s : TokenSearch) (ch : Char) : Except Fault TokenSearch := do
  match ch with
  | '[' => s.takeOpening .flowSequenceStart
  | '\x7b' => s.takeOpening .flowMappingStart
  | ']' => s.takeClosing .flowSequenceEnd
  | '\x7d' => s.takeClosing .flowMappingEnd
  | ',' => s.takeFlowEntry
  | '*' => s.takeName .alias
  | '&' => s.takeName .anchor
  | '!' => s.takeTag
  | '\'' => s.takeQuoted false
  | '"' => s.takeQuoted true
  | _ =>
    if ch = '-' then
      if ← s.standsAlone then return ← s.takeBlockEntry
    if ch = '?' then
      if s.inFlow || (← s.standsAlone) then return ← s.takeKey
    if ch = ':' then
      if s.inFlow || (← s.standsAlone) then return ← s.takeValue
    if ch = '|' && !s.inFlow then s.takeBlockScalar false
    else if ch = '>' && !s.inFlow then s.takeBlockScalar true
    else if ← s.startsPlain then s.takePlain
    else .error .malformed

/-- Find the next token. -/
def step (s : TokenSearch) : Except Fault TokenSearch := do
  let s ← s.skipGap s.cursor.bound
  let s ← s.dropStaleKeys
  let s := s.unwind s.cursor.column
  let ch ← s.cursor.peek
  if ch = '\x00' then s.takeEnd
  else if ch = '%' && s.cursor.column = 0 then s.takeDirective
  else if ← s.isAtMarker '-' then s.takeMarker .documentStart
  else if ← s.isAtMarker '.' then s.takeMarker .documentEnd
  else s.takeInside ch

/-! ### Asking for tokens -/

/-- Whether a token has to be found before the next one is ready. -/
def isShort (s : TokenSearch) : Except Fault (Bool × TokenSearch) := do
  if s.isDone then return (false, s)
  if s.waiting.isEmpty then return (true, s)
  let s ← s.dropStaleKeys
  return (s.keys.any fun (_, key) => key.number = s.taken, s)

/-- Find tokens until the next one is ready. -/
def readyFrom (fuel : Nat) (s : TokenSearch) : Except Fault TokenSearch := do
  match fuel with
  | 0 => return s
  | fuel + 1 =>
    let (isShort, s) ← s.isShort
    if isShort then readyFrom fuel (← s.step) else return s

/-- The search when its next token is ready. -/
def ready (s : TokenSearch) : Except Fault TokenSearch := do
  let (isShort, s) ← s.isShort
  if isShort then readyFrom s.cursor.bound (← s.step) else return s

/-- The **next token**, and the search when it is known. -/
def next (s : TokenSearch) : Except Fault (Token × TokenSearch) := do
  let s ← s.ready
  match s.waiting with
  | t :: _ => return (t, s)
  | [] => .error .malformed

/-- Take the next token, which is ready. -/
def drop (s : TokenSearch) : TokenSearch :=
  { s with waiting := s.waiting.tail, taken := s.taken + 1 }

/-- The search from the start of a text. A byte order mark there is passed over. -/
def start (source : Source) : Except Fault TokenSearch := do
  let cursor := Cursor.start source
  return { cursor := ← if (← cursor.peek) = '\ufeff' then cursor.next else pure cursor }

end TokenSearch

end TreeLint.Yaml
