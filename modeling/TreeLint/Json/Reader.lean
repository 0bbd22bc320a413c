import TreeLint.Json.Display

/-!
# Reading JSON

`Json.read` gives the value of a JSON text, or the first fault in it. A fault remembers the
rest of the text at the place where it was found, from which its line follows
(`ReadFault.line`). Beside the values of the standard, `NaN`, `Infinity` and `-Infinity`
are read as numbers.

Three limits are part of the contract: a control character may not stand in a string, a
whole number has at most `digitLimit` digits, and values are nested at most as deep as the
caller allows.

An escape can write half of a pair of code units without the other half, which is no character.
What is read in its place is up to the caller (`lone`): with a character of its own for each
half, nothing is confused.

## Convention

Reading functions take the text that is left and give back what is left after them. Lists
and objects are read with a budget, the length of the text that is left when they start; an
item uses up at least one character, so the budget never runs out.
-/

namespace TreeLint.Json

/-- What is wrong at a place of a text. -/
inductive ReadCause where
  | expectingValue
  | expectingName
  | expectingColon
  | expectingComma
  | extraData
  | unterminatedString
  | controlCharacter
  | unknownEscape
  | malformedCodeEscape
  | byteOrderMark
  deriving DecidableEq, Repr

/-- The text of a cause. -/
def ReadCause.message : ReadCause → String
  | .expectingValue => "Expecting value"
  | .expectingName => "Expecting property name enclosed in double quotes"
  | .expectingColon => "Expecting ':' delimiter"
  | .expectingComma => "Expecting ',' delimiter"
  | .extraData => "Extra data"
  | .unterminatedString => "Unterminated string starting at"
  | .controlCharacter => "Invalid control character at"
  | .unknownEscape => "Invalid \\escape"
  | .malformedCodeEscape => "Invalid \\uXXXX escape"
  | .byteOrderMark => "Unexpected UTF-8 BOM (decode using utf-8-sig)"

/-- Why a text has no value. -/
inductive ReadFault where
  /-- The text is no JSON; `rest` is what is left of it at the fault. -/
  | invalid (cause : ReadCause) (rest : List Char)
  /-- A whole number has more digits than are read. -/
  | tooManyDigits (found : Nat)
  /-- Values are nested deeper than allowed. -/
  | tooDeep
  deriving DecidableEq, Repr

/-- The line, counted from one, on which the text `rest` starts at the end of `text`. -/
def lineOf (text rest : List Char) : Nat :=
  1 + (text.take (text.length - rest.length)).count '\n'

/-- The white space of JSON. -/
def isBlankChar (c : Char) : Bool := c == ' ' || c == '\t' || c == '\n' || c == '\r'

/-- The text after its leading white space. -/
def skipBlanks (cs : List Char) : List Char := cs.dropWhile isBlankChar

/-! ### Strings -/

/-- The value of a hexadecimal digit. -/
def hexValue? (c : Char) : Option Nat :=
  if '0' ≤ c ∧ c ≤ '9' then some (c.toNat - '0'.toNat)
  else if 'a' ≤ c ∧ c ≤ 'f' then some (c.toNat - 'a'.toNat + 10)
  else if 'A' ≤ c ∧ c ≤ 'F' then some (c.toNat - 'A'.toNat + 10)
  else none

/-- The number written by four hexadecimal digits. -/
def hex4? (a b c d : Char) : Option Nat := do
  return ((← hexValue? a) * 16 + (← hexValue? b)) * 256 + ((← hexValue? c) * 16 + (← hexValue? d))

/-- The first half of a pair of units for one character beyond the first plane. -/
def isHighUnit (n : Nat) : Bool := 0xd800 ≤ n && n < 0xdc00

/-- The second half of such a pair. -/
def isLowUnit (n : Nat) : Bool := 0xdc00 ≤ n && n < 0xe000

/-- The character of a code unit, where `lone` stands for half of a pair on its own. -/
def ofUnit (lone : Nat → Char) (n : Nat) : Char :=
  if isHighUnit n || isLowUnit n then lone n else Char.ofNat n

/-- The character of a pair of code units. -/
def ofUnitPair (high low : Nat) : Char :=
  Char.ofNat (0x10000 + ((high - 0xd800) * 1024 + (low - 0xdc00)))

/-- The character for the letter of a short escape. -/
def shortEscape? : Char → Option Char
  | '"' => some '"'
  | '\\' => some '\\'
  | '/' => some '/'
  | 'b' => some '\x08'
  | 'f' => some '\x0c'
  | 'n' => some '\n'
  | 'r' => some '\r'
  | 't' => some '\t'
  | _ => none

/-- The characters of a string up to its closing quote. `start` is the text from the
opening quote on, `acc` the characters read so far in reverse. The escape of a code unit has to
be followed by something. -/
def readChars (lone : Nat → Char) (start : List Char) :
    List Char → List Char → Except ReadFault (List Char × List Char)
  | _, [] => .error (.invalid .unterminatedString start)
  | acc, '"' :: rest => .ok (acc.reverse, rest)
  | _, ['\\'] => .error (.invalid .unterminatedString start)
  | acc, '\\' :: 'u' :: a :: b :: c :: d :: rest =>
    let here := '\\' :: 'u' :: a :: b :: c :: d :: rest
    match hex4? a b c d with
    | none => .error (.invalid .malformedCodeEscape here)
    | some unit =>
      match rest with
      | [] => .error (.invalid .malformedCodeEscape here)
      | '\\' :: 'u' :: e :: f :: g :: h :: after :: tail =>
        let second := '\\' :: 'u' :: e :: f :: g :: h :: after :: tail
        match hex4? e f g h with
        | some next =>
          if isHighUnit unit && isLowUnit next then
            readChars lone start (ofUnitPair unit next :: acc) (after :: tail)
          else readChars lone start (ofUnit lone unit :: acc) second
        | none => readChars lone start (ofUnit lone unit :: acc) second
      | c :: tail => readChars lone start (ofUnit lone unit :: acc) (c :: tail)
  | acc, '\\' :: e :: rest =>
    match shortEscape? e with
    | some c => readChars lone start (c :: acc) rest
    | none =>
      if e = 'u' then .error (.invalid .malformedCodeEscape ('\\' :: e :: rest))
      else .error (.invalid .unknownEscape ('\\' :: e :: rest))
  | acc, c :: rest =>
    if c.toNat < 0x20 then .error (.invalid .controlCharacter (c :: rest))
    else readChars lone start (c :: acc) rest
termination_by _ cs => cs.length

/-- A string after its opening quote. -/
def readString (lone : Nat → Char) (rest : List Char) :
    Except ReadFault (String × List Char) := do
  let (cs, rest) ← readChars lone ('"' :: rest) [] rest
  return (String.ofList cs, rest)

/-! ### Numbers -/

/-- An ASCII digit. -/
def isDigitChar (c : Char) : Bool := '0' ≤ c && c ≤ '9'

/-- The number that a sequence of decimal digits writes. -/
def digitsValue (ds : List Char) : Nat := ds.foldl (fun n d => 10 * n + (d.toNat - '0'.toNat)) 0

/-- The digits before the point: a zero on its own, or digits that do not start with one. -/
def wholeDigits? : List Char → Option (List Char × List Char)
  | '0' :: rest => some (['0'], rest)
  | c :: rest => if isDigitChar c then some ((c :: rest).span isDigitChar) else none
  | [] => none

/-- The digits of a fraction, if there is one. -/
def fractionDigits : List Char → List Char × List Char
  | '.' :: rest =>
    match rest.span isDigitChar with
    | ([], _) => ([], '.' :: rest)
    | (ds, rest) => (ds, rest)
  | rest => ([], rest)

/-- The exponent, if there is one. -/
def exponentPart (cs : List Char) : Option Int × List Char :=
  let digits (negative : Bool) (rest : List Char) : Option Int × List Char :=
    match rest.span isDigitChar with
    | ([], _) => (none, cs)
    | (ds, rest) =>
      let n : Int := digitsValue ds
      (some (if negative then -n else n), rest)
  match cs with
  | 'e' :: '-' :: rest | 'E' :: '-' :: rest => digits true rest
  | 'e' :: '+' :: rest | 'E' :: '+' :: rest => digits false rest
  | 'e' :: rest | 'E' :: rest => digits false rest
  | _ => (none, cs)

/-- A number, if the text starts with one. With a fraction or an exponent it is a double,
otherwise a whole number. -/
def readNumber? (cs : List Char) : Option (Except ReadFault (Json × List Char)) :=
  let (negative, unsigned) := match cs with
    | '-' :: rest => (true, rest)
    | _ => (false, cs)
  match wholeDigits? unsigned with
  | none => none
  | some (whole, rest) =>
    let (fraction, rest) := fractionDigits rest
    let (exponent, rest) := exponentPart rest
    match fraction, exponent with
    | [], none =>
      if digitLimit < whole.length then some (.error (.tooManyDigits whole.length))
      else
        let n : Int := digitsValue whole
        some (.ok (.int (if negative then -n else n), rest))
    | _, _ =>
      let unit := exponent.getD 0 - fraction.length
      some (.ok (.float (.ofDecimal negative (digitsValue (whole ++ fraction)) unit), rest))

/-! ### Values -/

/-- The words that are values. -/
def words : List (String × Json) :=
  [("null", .null), ("true", .bool true), ("false", .bool false), ("NaN", .float .nan),
    ("Infinity", .float (.infinite false)), ("-Infinity", .float (.infinite true))]

/-- The text after a word that it starts with. -/
def afterWord? : List Char → List Char → Option (List Char)
  | [], cs => some cs
  | _ :: _, [] => none
  | w :: ws, c :: cs => if w = c then afterWord? ws cs else none

/-- A string, a number or a word. -/
def readScalar (lone : Nat → Char) (cs : List Char) : Except ReadFault (Json × List Char) :=
  match cs with
  | '"' :: rest => do
    let (s, rest) ← readString lone rest
    return (.str s, rest)
  | _ =>
    match readNumber? cs with
    | some reading => reading
    | none =>
      let word? := words.findSome? fun (word, v) =>
        (afterWord? word.toList cs).map fun rest => (v, rest)
      match word? with
      | some reading => .ok reading
      | none => .error (.invalid .expectingValue cs)

/-- The items of a list, of which the first starts here, up to the closing bracket. -/
def readItems (item : List Char → Except ReadFault (Json × List Char)) :
    Nat → List Json → List Char → Except ReadFault (List Json × List Char)
  | 0, _, cs => .error (.invalid .expectingValue cs)
  | budget + 1, acc, cs => do
    let (v, rest) ← item cs
    match skipBlanks rest with
    | ']' :: rest => return ((v :: acc).reverse, rest)
    | ',' :: rest => readItems item budget (v :: acc) (skipBlanks rest)
    | rest => .error (.invalid .expectingComma rest)

/-- The members of an object, of which the first starts here, up to the closing brace. -/
def readMembers (lone : Nat → Char) (item : List Char → Except ReadFault (Json × List Char)) :
    Nat → List (String × Json) → List Char → Except ReadFault (List (String × Json) × List Char)
  | 0, _, cs => .error (.invalid .expectingName cs)
  | budget + 1, acc, '"' :: rest => do
    let (key, rest) ← readString lone rest
    match skipBlanks rest with
    | ':' :: rest =>
      let (v, rest) ← item (skipBlanks rest)
      let acc := setMember key v acc
      match skipBlanks rest with
      | '\x7d' :: rest => return (acc, rest)
      | ',' :: rest => readMembers lone item budget acc (skipBlanks rest)
      | rest => .error (.invalid .expectingComma rest)
    | rest => .error (.invalid .expectingColon rest)
  | _ + 1, _, cs => .error (.invalid .expectingName cs)

/-- A value with at most `depth` lists and objects around each other. -/
def readValue (lone : Nat → Char) : Nat → List Char → Except ReadFault (Json × List Char)
  | depth, '[' :: rest =>
    match depth with
    | 0 => .error .tooDeep
    | depth + 1 =>
      match skipBlanks rest with
      | ']' :: rest => .ok (.arr [], rest)
      | rest => do
        let (items, rest) ← readItems (readValue lone depth) (rest.length + 1) [] rest
        return (.arr items, rest)
  | depth, '\x7b' :: rest =>
    match depth with
    | 0 => .error .tooDeep
    | depth + 1 =>
      match skipBlanks rest with
      | '\x7d' :: rest => .ok (.obj () [], rest)
      | rest => do
        let (members, rest) ← readMembers lone (readValue lone depth) (rest.length + 1) [] rest
        return (.obj () members, rest)
  | _, cs => readScalar lone cs

/-- The **value of a text**, with at most `depth` lists and objects around each other. -/
def read (lone : Nat → Char) (depth : Nat) (text : List Char) : Except ReadFault Json :=
  match text with
  | '\ufeff' :: _ => .error (.invalid .byteOrderMark text)
  | _ =>
    match readValue lone depth (skipBlanks text) with
    | .error fault => .error fault
    | .ok (v, rest) =>
      match skipBlanks rest with
      | [] => .ok v
      | rest => .error (.invalid .extraData rest)

end TreeLint.Json
