import TreeLint.Number.Double
import TreeLint.Text.Character
import TreeLint.Text.Lower
import TreeLint.Yaml.Implicit
import TreeLint.Yaml.Scalar

/-!
# Numbers in a YAML Text

What a scalar stands for that is tagged as a number. The tag may have been written by hand, so
the text can be anything. Underscores do not count.
-/

namespace TreeLint.Yaml

/-- The value of a digit in some base up to sixteen. -/
def digitIn? (base : Nat) (c : Char) : Option Nat := do
  let d ← hexDigit? c
  if d < base then some d else none

/-- The number that digits write in a base. -/
def digitsIn? (base : Nat) (cs : List Char) : Option Nat :=
  if cs.isEmpty then none
  else cs.foldl (fun n c => do return base * (← n) + (← digitIn? base c)) (some 0)

/-- The letter that may stand after a zero before digits in a base. -/
def baseLetters : Nat → List Char
  | 2 => ['b', 'B']
  | 8 => ['o', 'O']
  | 16 => ['x', 'X']
  | _ => []

/-- The text without a zero and a letter that name the base. -/
def dropBase (base : Nat) : List Char → List Char
  | '0' :: c :: rest => if (baseLetters base).contains c then rest else '0' :: c :: rest
  | cs => cs

/-- The whole number that a text writes in a base, with blanks around it and a sign. -/
def integerIn (base : Nat) (text : List Char) : Except ScalarFault Int :=
  let trimmed := Text.numeral text
  let unsigned := dropSign trimmed
  match digitsIn? base (dropBase base unsigned) with
  | none => .error (.notAnInteger base (String.ofList text))
  | some n =>
    if base = 10 && digitLimit < unsigned.length then
      .error (.tooManyDigits (.reading unsigned.length))
    else .ok (if trimmed.head? = some '-' then -(n : Int) else n)

/-- The value of the places of a number in base sixty, the highest first. -/
def inBaseSixty (places : List Int) : Int := places.foldl (fun n d => 60 * n + d) 0

/-- The **whole number** that a scalar stands for. -/
def integerOf (text : String) : Except ScalarFault Int :=
  let cs := text.toList.filter (· != '_')
  if cs.isEmpty then .error .emptyNumber
  else
    let negative := cs.head? = some '-'
    let signed (n : Int) : Int := if negative then -n else n
    match dropSign cs with
    | ['0'] => .ok 0
    | '0' :: 'b' :: rest => (integerIn 2 rest).map signed
    | '0' :: 'x' :: rest => (integerIn 16 rest).map signed
    | '0' :: rest => (integerIn 8 ('0' :: rest)).map signed
    | [] => .error .emptyNumber
    | cs =>
      if cs.contains ':' then do
        let places ← (Text.splitAll (· == ':') cs).mapM (integerIn 10)
        return signed (inBaseSixty places)
      else (integerIn 10 cs).map signed

/-- The whole number of decimal digits. -/
def decimalDigits (cs : List Char) : Nat := cs.foldl (fun n c => 10 * n + (c.toNat - 48)) 0

/-- An exponent, which may be missing. -/
def exponent? : List Char → Option Int
  | [] => some 0
  | e :: rest =>
    let digits := dropSign rest
    if (e = 'e' || e = 'E') && !digits.isEmpty && digits.all Char.isDigit then
      some (if rest.head? = some '-' then -(decimalDigits digits : Int) else decimalDigits digits)
    else none

/-- The number that a text without a sign writes with digits, a point and an exponent. -/
def unsignedDecimal? (negative : Bool) (cs : List Char) : Option Double :=
  let word := String.ofList cs
  if word = "inf" || word = "infinity" then some (.infinite negative)
  else if word = "nan" then some .nan
  else do
    let whole := cs.takeWhile Char.isDigit
    let rest := cs.dropWhile Char.isDigit
    let (fraction, rest) := match rest with
      | '.' :: rest => (rest.takeWhile Char.isDigit, rest.dropWhile Char.isDigit)
      | _ => ([], rest)
    if whole.isEmpty && fraction.isEmpty then none
    let exponent ← exponent? rest
    return .ofDecimal negative (decimalDigits (whole ++ fraction)) (exponent - fraction.length)

/-- The number that a text in lower case writes, with blanks around it and a sign. -/
def decimalIn (negative : Bool) (text : List Char) : Except ScalarFault Double :=
  let trimmed := Text.numeral text
  let negative := negative != (trimmed.head? = some '-')
  match unsignedDecimal? negative (dropSign trimmed) with
  | some x => .ok x
  | none => .error (.notADecimal (String.ofList text))

/-- The number whose places in base sixty are given, the highest first. Every place is rounded
after it has been multiplied by its weight and again after it has been added to those below. The
weights themselves have to be doubles. -/
def decimalInBaseSixty (places : List Double) : Except ScalarFault Double := do
  let (sum, _) ← places.reverse.foldlM (fun (sum, weight) place => do
    let factor := Double.ofInt weight
    if factor.toRatio?.isNone then .error .tooManyPlaces
    return (Double.add sum (place.mul factor), 60 * weight)) (Double.zero false, (1 : Int))
  return sum

/-- The characters of a number with a point that count, in lower case. -/
def decimalChars (text : String) : List Char := Text.lower (text.toList.filter (· != '_'))

/-- Whether a scalar names what is no number. -/
def namesNan (text : String) : Bool := dropSign (decimalChars text) = ['.', 'n', 'a', 'n']

/-- The **number with a point** that a scalar stands for. -/
def decimalOf (text : String) : Except ScalarFault Double :=
  let cs := decimalChars text
  if cs.isEmpty then .error .emptyNumber
  else
    let negative := cs.head? = some '-'
    let cs := dropSign cs
    if cs = ['.', 'i', 'n', 'f'] then .ok (.infinite negative)
    else if namesNan text then .ok .nan
    else if cs.contains ':' then do
      let places ← (Text.splitAll (· == ':') cs).mapM (decimalIn false)
      return (Double.ofInt (if negative then -1 else 1)).mul (← decimalInBaseSixty places)
    else decimalIn negative cs

end TreeLint.Yaml
