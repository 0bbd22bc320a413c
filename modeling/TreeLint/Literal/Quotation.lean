import TreeLint.Literal.Fault
import TreeLint.Number.Total

/-!
# Texts in a Literal

A text stands between quotes, one or three at each end, and letters before it say how it is meant:
as bytes, as written, or with expressions in it. Where it ends does not depend on the letters; what
its escapes stand for does.
-/

namespace TreeLint.Literal

/-! ### Where a text ends -/

/-- The letters before a text that were seen. -/
structure Letters where
  bytes : Bool := false
  raw : Bool := false
  unicode : Bool := false
  format : Bool := false
  deriving DecidableEq, Repr

/-- The letters with one more, if it can stand with them. -/
def Letters.add? (l : Letters) (c : Char) : Option Letters :=
  if (c = 'b' || c = 'B') && !(l.bytes || l.unicode || l.format) then
    some { l with bytes := true }
  else if (c = 'u' || c = 'U') && !(l.bytes || l.unicode || l.raw || l.format) then
    some { l with unicode := true }
  else if (c = 'r' || c = 'R') && !(l.raw || l.unicode) then some { l with raw := true }
  else if (c = 'f' || c = 'F') && !(l.format || l.bytes || l.unicode) then
    some { l with format := true }
  else none

/-- Whether a character is a quote. -/
def isQuote (c : Char) : Bool := c = '"' || c = '\''

/-- The letters here and the text from its quote on, if there is one after them. -/
def letters? (l : Letters) : List Char → Option (Letters × List Char)
  | [] => none
  | c :: rest =>
    if isQuote c then some (l, c :: rest)
    else
      match l.add? c with
      | some l => letters? l rest
      | none => none

/-- The characters of a text up to its end. `count` of `size` closing quotes have just been
passed; a quote after a backslash does not close. Nothing if the text does not end; a line end
ends a text with single quotes. -/
def closeText (quote : Char) (size : Nat) : Nat → List Char → Option (List Char × List Char)
  | _, [] => none
  | count, c :: rest =>
    if c = '\n' && size = 1 then none
    else if c = quote then
      if count + 1 = size then some ([c], rest)
      else (closeText quote size (count + 1) rest).map fun (body, rest) => (c :: body, rest)
    else if c = '\\' then
      match rest with
      | [] => none
      | d :: rest => (closeText quote size 0 rest).map fun (body, rest) => (c :: d :: body, rest)
    else (closeText quote size 0 rest).map fun (body, rest) => (c :: body, rest)

/-- How many quotes a text starts with that has not ended with them. Two are a whole text. -/
def openingSize (quote : Char) (rest : List Char) : Nat :=
  if [quote, quote, quote].isPrefixOf rest then 3 else 1

/-- The text whose quote is here, with its quotes, and what comes after it. Without an end, the
number of lines that it goes on for counts. -/
def quotation (line : Nat) (cs : List Char) : Except TokenFault (List Char × List Char) :=
  let quote := cs.headD '"'
  let size := openingSize quote cs
  match closeText quote size 0 (cs.drop size) with
  | some (body, rest) => .ok (cs.take size ++ body, rest)
  | none => .error (.unterminated (size = 3) (line + linesOpen size (cs.drop size)))
where
  /-- How many line ends a text that does not end passes over. -/
  linesOpen (size : Nat) : List Char → Nat
    | [] => 0
    | '\\' :: '\n' :: rest => linesOpen size rest + 1
    | '\\' :: _ :: rest => linesOpen size rest
    | '\n' :: rest => if size = 1 then 0 else linesOpen size rest + 1
    | _ :: rest => linesOpen size rest

/-! ### What a text stands for -/

/-- The value of a hexadecimal digit. -/
def hexValue? (c : Char) : Option Nat :=
  if c.isDigit then some (c.toNat - 48)
  else if 'a' ≤ c && c ≤ 'f' then some (c.toNat - 87)
  else if 'A' ≤ c && c ≤ 'F' then some (c.toNat - 55)
  else none

/-- How many digits an escape with a letter has. -/
def escapeDigits? (c : Char) : Option Nat := [('x', 2), ('u', 4), ('U', 8)].lookup c

/-- How many places a character takes when a text with escapes is counted. Those that are not
written with one byte are written out as escapes themselves. -/
def placesOf (c : Char) : Nat := if c.toNat < 0x80 then 1 else 10

/-- A fault of the escapes of a text from a place on. -/
def escapeFault? (place : Nat) : List Char → Option ConstantFault
  | [] => none
  | '\\' :: 'N' :: rest =>
    let name := (rest.drop 1).takeWhile (· != '\x7d')
    if rest.head? = some '\x7b' && (rest.drop 1).contains '\x7d' && !name.isEmpty then
      escapeFault? (place + 2) rest
    else
      let stop := place +
        if rest.head? = some '\x7b' then 3 + total (name.map placesOf) else 2
      some (.escape place stop .unnamed)
  | '\\' :: c :: rest =>
    match escapeDigits? c with
    | none =>
      if c.toNat < 0x80 then escapeFault? (place + 2) rest
      else escapeFault? (place + 6 + placesOf c) rest
    | some count =>
      let digits := (rest.take count).filterMap hexValue?
      let run := (rest.take count).takeWhile fun d => (hexValue? d).isSome
      if run.length < count then
        some (.escape place (place + 2 + run.length) (.truncated c count))
      else if 0x110000 ≤ digits.foldl (fun n d => 16 * n + d) 0 then
        some (.escape place (place + 2 + count) .beyond)
      else escapeFault? (place + 2) rest
  | c :: rest => escapeFault? (place + placesOf c) rest

/-- A fault of the escapes of bytes from a place on. -/
def byteEscapeFault? (place : Nat) : List Char → Option ConstantFault
  | '\\' :: 'x' :: rest =>
    if ((rest.take 2).filterMap hexValue?).length = 2 then byteEscapeFault? (place + 2) rest
    else some (.byteEscape place)
  | '\\' :: _ :: rest => byteEscapeFault? (place + 2) rest
  | _ :: rest => byteEscapeFault? (place + 1) rest
  | [] => none

/-- The letters of a whole text, and its characters without the quotes. -/
def splitQuotation (cs : List Char) : Letters × List Char :=
  match letters? {} cs with
  | none => ({}, [])
  | some (l, quoted) =>
    let size := openingSize (quoted.headD '"') quoted
    (l, (quoted.drop size).take (quoted.length - 2 * size))

end TreeLint.Literal
