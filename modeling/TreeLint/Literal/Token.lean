import TreeLint.Literal.Numeral
import TreeLint.Literal.Quotation
import TreeLint.Text.NameChar

/-!
# Tokens of a Literal

`TokenStream.next` takes the next token off a text. Line ends count only outside of brackets,
where the columns at which lines start count too; so the stream keeps the brackets that are open
and the columns of the lines around.
-/

namespace TreeLint.Literal

/-- What a token is. -/
inductive TokenKind where
  | name
  | keyword
  | number
  | text
  | operator
  | newline
  | indent
  | unindent
  | finish
  deriving DecidableEq, Repr, Inhabited

/-- A token: its characters, its line, and how many brackets are open after it. -/
structure Token where
  kind : TokenKind
  chars : List Char
  line : Nat
  depth : Nat
  deriving DecidableEq, Repr, Inhabited

/-- The words that are not names. -/
def keywords : List String :=
  ["False", "None", "True", "and", "as", "assert", "async", "await", "break", "class", "continue",
    "def", "del", "elif", "else", "except", "finally", "for", "from", "global", "if", "import",
    "in", "is", "lambda", "nonlocal", "not", "or", "pass", "raise", "return", "try", "while",
    "with", "yield"]

/-- The operators of more than one character, the longer ones first. -/
def longOperators : List String :=
  ["**=", "//=", "<<=", ">>=", "...", "!=", "%=", "&=", "**", "*=", "+=", "-=", "->", "//", "/=",
    ":=", "<<", "<=", "<>", "==", ">=", ">>", "@=", "^=", "|="]

/-- How many columns a line can be indented by. -/
def indentLimit : Nat := 100

/-- A text of which tokens were taken. -/
structure TokenStream where
  rest : List Char
  line : Nat := 1
  /-- Whether a line starts here. -/
  startsLine : Bool := true
  /-- The columns of the lines around, the innermost first: with tabs up to every eighth column,
  and with tabs of one column. -/
  indents : List (Nat × Nat) := [(0, 0)]
  /-- The tokens for changes of columns that are still to come. -/
  changes : List TokenKind := []
  /-- The brackets that are open and their lines, the innermost first. -/
  brackets : List (Char × Nat) := []

namespace TokenStream

/-- A token with `count` characters that are here, and the stream after it. -/
def token (s : TokenStream) (kind : TokenKind) (count : Nat) : Token × TokenStream :=
  let chars := s.rest.take count
  let s := { s with rest := s.rest.drop count }
  (⟨kind, chars, s.line, s.brackets.length⟩,
    { s with line := s.line + chars.count '\n' })

/-! ### The start of a line -/

/-- The columns of the first character of a line that is no blank, with tabs of both kinds, and
the line from there. A line may go on after a backslash, and then the column of the first
backslash counts. -/
def measureIndent (fuel : Nat) (columns : Nat × Nat) (continued : Nat) (s : TokenStream) :
    Except TokenFault ((Nat × Nat) × TokenStream) :=
  match fuel, s.rest with
  | fuel + 1, ' ' :: rest =>
    measureIndent fuel (columns.1 + 1, columns.2 + 1) continued { s with rest }
  | fuel + 1, '\t' :: rest =>
    measureIndent fuel ((columns.1 / 8 + 1) * 8, columns.2 + 1) continued { s with rest }
  | fuel + 1, '\x0c' :: rest => measureIndent fuel (0, 0) continued { s with rest }
  | fuel + 1, '\\' :: '\n' :: rest =>
    if rest.isEmpty then .error .unexpectedEnd
    else
      let continued := if continued = 0 then columns.1 else continued
      measureIndent fuel columns continued { s with rest, line := s.line + 1 }
  | _ + 1, '\\' :: _ => .error .afterBackslash
  | _, _ => .ok (if continued = 0 then columns else (continued, continued), s)

/-- The columns around that a line at some column is left of, taken away one by one. -/
def unindents (column : Nat) : List (Nat × Nat) → Nat × List (Nat × Nat)
  | (c, a) :: outer :: rest =>
    if column < c then
      let (n, left) := unindents column (outer :: rest)
      (n + 1, left)
    else (0, (c, a) :: outer :: rest)
  | columns => (0, columns)

/-- A line starts at these columns. -/
def startLine (columns : Nat × Nat) (s : TokenStream) : Except TokenFault TokenStream :=
  match s.indents with
  | [] => .ok s
  | (column, plain) :: outer =>
    if columns.1 = column then if columns.2 = plain then .ok s else .error .mixedTabs
    else if column < columns.1 then
      if indentLimit ≤ s.indents.length then .error .tooManyIndents
      else if columns.2 ≤ plain then .error .mixedTabs
      else .ok { s with indents := columns :: (column, plain) :: outer, changes := [.indent] }
    else
      let (n, indents) := unindents columns.1 s.indents
      if indents.head?.map Prod.fst != some columns.1 then .error .unindented
      else if indents.head? != some columns then .error .mixedTabs
      else .ok { s with indents, changes := List.replicate n .unindent }

/-- The stream after what a line starts with, and whether the line is blank. The columns of blank
lines, and of lines between brackets, do not count. -/
def enterLine (s : TokenStream) : Except TokenFault (Bool × TokenStream) := do
  if !s.startsLine then return (false, s)
  let (columns, s) ← measureIndent (s.rest.length + 1) (0, 0) 0 { s with startsLine := false }
  let isBlank := s.rest.head?.any fun c => c = '#' || c = '\n'
  if isBlank || !s.brackets.isEmpty then return (isBlank, s)
  return (false, ← startLine columns s)

/-! ### Single tokens -/

/-- A name, or a word that is none. -/
def takeName (s : TokenStream) : Except TokenFault (Token × TokenStream) :=
  let chars := s.rest.takeWhile isNameLike
  let isFirst := chars.head?.any Text.isNameStart
  match (if isFirst then (chars.drop 1).find? fun c => !Text.isNamePart c else chars.head?) with
  | some c => .error (.strange c)
  | none =>
    let kind : TokenKind := if keywords.contains (String.ofList chars) then .keyword else .name
    .ok (s.token kind chars.length)

/-- A number. -/
def takeNumber (s : TokenStream) : Except TokenFault (Token × TokenStream) := do
  let (chars, _) ← numeral s.rest
  return s.token .number chars.length

/-- A text, with the letters before it. -/
def takeText (s : TokenStream) (quoted : List Char) : Except TokenFault (Token × TokenStream) := do
  let (chars, _) ← quotation s.line quoted
  return s.token .text (s.rest.length - quoted.length + chars.length)

/-- The bracket that a bracket closes. -/
def openingOf? (c : Char) : Option Char := [(')', '('), (']', '['), ('\x7d', '\x7b')].lookup c

/-- An operator of one character. Characters without a meaning are operators that no rule knows. -/
def takeOperator (s : TokenStream) (c : Char) : Except TokenFault (Token × TokenStream) :=
  if ['(', '[', '\x7b'].contains c then
    if bracketLimit ≤ s.brackets.length then .error .tooManyBrackets
    else .ok ({ s with brackets := (c, s.line) :: s.brackets }.token .operator 1)
  else
    match openingOf? c, s.brackets with
    | some _, [] => .error (.unmatched c)
    | some opening, (o, line) :: brackets =>
      if o = opening then .ok ({ s with brackets }.token .operator 1)
      else .error (.mismatched c o (if line = s.line then none else some line))
    | none, _ => if Text.isPrintable c then .ok (s.token .operator 1) else .error (.strange c)

/-- The token that starts with a character here. -/
def takeToken (s : TokenStream) (c : Char) : Except TokenFault (Token × TokenStream) :=
  match letters? {} s.rest with
  | some (_, quoted) => s.takeText quoted
  | none =>
    if isNameLike c && !c.isDigit then s.takeName
    else if c.isDigit || (c = '.' && (s.rest.drop 1).head?.any Char.isDigit) then s.takeNumber
    else
      match longOperators.find? fun op => op.toList.isPrefixOf s.rest with
      | some op => .ok (s.token .operator op.length)
      | none => s.takeOperator c

/-! ### The stream -/

/-- The fault of a text that ends in the middle of a line. -/
def faultAtEnd (s : TokenStream) : TokenFault :=
  match s.brackets with
  | (opening, _) :: _ => .neverClosed opening
  | [] => .unexpectedEnd

/-- The next token from the middle of a line on, which is blank up to here or not. -/
def nextInLine (fuel : Nat) (isBlank : Bool) (s : TokenStream) :
    Except TokenFault (Token × TokenStream) := do
  match fuel with
  | 0 => .error .unexpectedEnd
  | fuel + 1 =>
    let rest := s.rest.dropWhile fun c => c = ' ' || c = '\t' || c = '\x0c'
    let rest := if rest.head? = some '#' then rest.dropWhile (· != '\n') else rest
    let s := { s with rest }
    match rest with
    | [] =>
      if s.brackets.isEmpty then return s.token .finish 0 else .error s.faultAtEnd
    | '\n' :: _ =>
      let (t, s) := s.token .newline 1
      let s := { s with startsLine := true }
      if isBlank || !s.brackets.isEmpty then
        let (isBlank, s) ← s.enterLine
        match s.changes with
        | kind :: changes => return (⟨kind, [], s.line, 0⟩, { s with changes })
        | [] => nextInLine fuel isBlank s
      else return (t, s)
    | '\\' :: '\n' :: [] => .error s.faultAtEnd
    | '\\' :: '\n' :: rest => nextInLine fuel isBlank { s with rest, line := s.line + 1 }
    | '\\' :: _ => .error .afterBackslash
    | c :: _ => s.takeToken c

/-- The **next token**, and the stream after it. At the end it is always the same. -/
def next (s : TokenStream) : Except TokenFault (Token × TokenStream) := do
  let (isBlank, s) ← s.enterLine
  match s.changes with
  | kind :: changes => return (⟨kind, [], s.line, 0⟩, { s with changes })
  | [] => nextInLine (s.rest.length + 1) isBlank s

end TokenStream

end TreeLint.Literal
