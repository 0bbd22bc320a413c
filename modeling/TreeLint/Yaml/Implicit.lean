import TreeLint.Text.Character
import TreeLint.Yaml.Node

/-!
# Tags of Plain Scalars

A plain scalar without a tag is a value of the type that its text looks like: a truth value, a
number, a date, nothing, or else a text. Numbers may have underscores among their digits and may
be written in base sixty with colons.

## What is assumed

The words and the forms of numbers are those of version 1.1 of the language: `yes` and `on` are
truth values, and a number with a leading zero is octal. A word counts in lower case, with a
capital, or in upper case.
-/

namespace TreeLint.Yaml

/-- The words for truth. -/
def trueWords : List String := ["yes", "true", "on"]

/-- The words for falsity. -/
def falseWords : List String := ["no", "false", "off"]

/-- A word in lower case, with a capital, and in upper case. -/
def spellings (word : String) : List String := [word, word.capitalize, word.toUpper]

/-- The text without a line end at its very end. A text that is only a line end keeps it. -/
def dropLineEnd (cs : List Char) : List Char :=
  if cs.getLast? = some '\n' && 1 < cs.length then cs.dropLast else cs

/-- Whether a text is a word for a truth value. -/
def isTruthWord (text : String) : Bool :=
  (trueWords ++ falseWords).any fun word => (spellings word).contains text

/-- Whether a text is a word for nothing. -/
def isNullWord (text : String) : Bool :=
  text = "" || text = "~" || (spellings "null").contains text

/-- The text without a sign before it. -/
def dropSign : List Char → List Char
  | '+' :: rest | '-' :: rest => rest
  | cs => cs

/-- Whether a character is a digit or an underscore. -/
def isDigitMark (c : Char) : Bool := c.isDigit || c = '_'

/-- Whether a text is a digit followed by digits and underscores. -/
def isDigitRun : List Char → Bool
  | c :: rest => c.isDigit && rest.all isDigitMark
  | [] => false

/-- Whether a text is a place of a number in base sixty. -/
def isSixtyDigit : List Char → Bool
  | [c] => c.isDigit
  | [c, d] => '0' ≤ c && c ≤ '5' && d.isDigit
  | _ => false

/-- Whether a text looks like a whole number: in base ten or sixty, or with a leading zero and
perhaps a letter in base eight, two or sixteen. -/
def looksLikeInt (text : List Char) : Bool :=
  match dropSign text with
  | ['0'] => true
  | '0' :: 'b' :: rest => !rest.isEmpty && rest.all fun c => c = '0' || c = '1' || c = '_'
  | '0' :: 'x' :: rest =>
    !rest.isEmpty && rest.all fun c =>
      isDigitMark c || ('a' ≤ c && c ≤ 'f') || ('A' ≤ c && c ≤ 'F')
  | '0' :: rest => rest.all fun c => ('0' ≤ c && c ≤ '7') || c = '_'
  | cs =>
    match Text.splitAll (· == ':') cs with
    | first :: rest => isDigitRun first && rest.all isSixtyDigit
    | [] => false

/-- Whether a text is nothing, or an exponent with a sign. -/
def isExponent : List Char → Bool
  | [] => true
  | e :: sign :: rest =>
    (e = 'e' || e = 'E') && (sign = '+' || sign = '-') && !rest.isEmpty && rest.all Char.isDigit
  | _ => false

/-- Whether a text is digits and underscores with an exponent after them. -/
def isFraction (text : List Char) : Bool := isExponent (text.dropWhile isDigitMark)

/-- Whether a text looks like a number with a point. -/
def looksLikeFloat (text : List Char) : Bool :=
  let unsigned := dropSign text
  let whole := unsigned.takeWhile (· != '.')
  let fraction := (unsigned.drop whole.length).drop 1
  let hasPoint := whole.length < unsigned.length
  if !hasPoint then false
  else if whole.isEmpty then
    ["inf", "Inf", "INF"].contains (String.ofList fraction) ||
      (unsigned == text && (["nan", "NaN", "NAN"].contains (String.ofList fraction) ||
        ((fraction.headD ' ').isDigit && isFraction fraction)))
  else
    match Text.splitAll (· == ':') whole with
    | [_] => isDigitRun whole && isFraction fraction
    | first :: rest => isDigitRun first && rest.all isSixtyDigit && fraction.all isDigitMark
    | [] => false

/-! ### Dates -/

/-- The digits of a date and a time, as they are written. -/
structure Timestamp where
  year : List Char
  month : List Char
  day : List Char
  /-- Hour, minute, second and the digits after a point. -/
  time : Option (List Char × List Char × List Char × List Char) := none
  /-- Hours and minutes from universal time, and whether they are behind it. -/
  zone : Option (Bool × List Char × List Char) := none

/-- Between `least` and `most` digits, as many as there are, and the rest. -/
def takeDigits? (least most : Nat) (cs : List Char) : Option (List Char × List Char) :=
  let digits := (cs.take most).takeWhile Char.isDigit
  if least ≤ digits.length then some (digits, cs.drop digits.length) else none

/-- The text after a character. -/
def after? (c : Char) : List Char → Option (List Char)
  | [] => none
  | d :: rest => if d = c then some rest else none

/-- The zone at the end of a time: nothing, universal time, or a distance from it. -/
def zone? (cs : List Char) : Option (Option (Bool × List Char × List Char)) :=
  match cs, cs.dropWhile fun c => c = ' ' || c = '\t' with
  | [], _ => some none
  | _, ['Z'] => some (some (false, ['0'], ['0']))
  | _, sign :: rest =>
    if sign = '+' || sign = '-' then do
      let (hours, rest) ← takeDigits? 1 2 rest
      if rest.isEmpty then return some (sign == '-', hours, ['0'])
      let (minutes, rest) ← takeDigits? 2 2 (← after? ':' rest)
      if rest.isEmpty then return some (sign == '-', hours, minutes) else none
    else none
  | _, [] => none

/-- The time after a date. -/
def time? (date : Timestamp) (cs : List Char) : Option Timestamp := do
  let cs ← match cs with
    | 'T' :: rest | 't' :: rest => some rest
    | ' ' :: rest | '\t' :: rest => some (rest.dropWhile fun c => c = ' ' || c = '\t')
    | _ => none
  let (hour, cs) ← takeDigits? 1 2 cs
  let (minute, cs) ← takeDigits? 2 2 (← after? ':' cs)
  let (second, cs) ← takeDigits? 2 2 (← after? ':' cs)
  let (fraction, cs) := match cs with
    | '.' :: rest => (rest.takeWhile Char.isDigit, rest.dropWhile Char.isDigit)
    | _ => ([], cs)
  return { date with time := some (hour, minute, second, fraction), zone := ← zone? cs }

/-- A date, alone or with a time. -/
def timestamp? (cs : List Char) : Option Timestamp := do
  let (year, cs) ← takeDigits? 4 4 cs
  let (month, cs) ← takeDigits? 1 2 (← after? '-' cs)
  let (day, cs) ← takeDigits? 1 2 (← after? '-' cs)
  let date : Timestamp := { year, month, day }
  if cs.isEmpty then return date else time? date cs

/-- Whether a text looks like a date. A date without a time has all its digits. -/
def looksLikeTimestamp (cs : List Char) : Bool :=
  match timestamp? cs with
  | some t => t.time.isSome || (t.month.length = 2 && t.day.length = 2)
  | none => false

/-- The **tag of a plain scalar**. A line end after the text makes no difference. -/
def implicitTag (text : String) : Tag :=
  let cs := dropLineEnd text.toList
  let text := String.ofList cs
  if isTruthWord text then .bool
  else if looksLikeFloat cs then .float
  else if looksLikeInt cs then .int
  else if text = "<<" then .merge
  else if isNullWord text then .null
  else if looksLikeTimestamp cs then .timestamp
  else if text = "=" then .value
  else .str

end TreeLint.Yaml
