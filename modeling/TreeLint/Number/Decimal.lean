import TreeLint.Number.Double

/-!
# Decimal Text of Numbers

A `Double` is written with the **fewest digits that read back** to it; of several such
decimals the nearest is taken, and of two equally near the one with the even last digit.
The search is the specification turned into a loop: for one, two, … seventeen digits it
tries the two neighbours of the value on that decimal grid (`Double.shortest`).

Layout is separate from the choice of digits (`Double.text`): a value is written
positionally while its point lies at most three zeros before the first digit and at most
sixteen digits after it, and with a signed exponent of at least two digits otherwise.
-/

namespace TreeLint

/-- The least `k` with `num / den < 10 ^ k`, for a positive fraction. The difference of the
two lengths is this number or one less. -/
def decimalOrder (num den : Nat) : Int :=
  let e : Int := (Double.decimalLength num : Int) - (Double.decimalLength den : Int)
  let (n, d) := scaleByTen num den (-e)
  if n < d then e else e + 1

/-- A decimal `digits * 10 ^ exponent` without trailing zeros among its digits. The first
argument bounds the number of zeros removed. -/
def stripZeros : Nat → Nat → Int → Nat × Int
  | 0, digits, exponent => (digits, exponent)
  | fuel + 1, digits, exponent =>
    if digits ≠ 0 ∧ digits % 10 = 0 then stripZeros fuel (digits / 10) (exponent + 1)
    else (digits, exponent)

namespace Double

/-- The decimal of `count` digits that reads back to the positive double `x`, whose value
is `num / den` and whose decimal order is `order`, if there is one. -/
def decimalOfLength? (x : Double) (num den : Nat) (order : Int) (count : Nat) :
    Option (Nat × Int) :=
  let unit := order - count
  let (n, d) := scaleByTen num den (-unit)
  let low := n / d
  let lowFits := ofDecimal false low unit == x
  let highFits := ofDecimal false (low + 1) unit == x
  -- twice the distance from the lower neighbour, in grid units times `d`
  let twice := 2 * (n % d)
  match lowFits, highFits with
  | true, false => some (low, unit)
  | false, true => some (low + 1, unit)
  | false, false => none
  | true, true =>
    if twice < d then some (low, unit)
    else if d < twice then some (low + 1, unit)
    else if low % 2 = 0 then some (low, unit) else some (low + 1, unit)

/-- The value `mantissa * 2 ^ exponent` written out in full, as digits and a power of ten. -/
def exactDecimal (mantissa : Nat) (exponent : Int) : Nat × Int :=
  if 0 ≤ exponent then (mantissa * Nat.pow 2 exponent.toNat, 0)
  else (mantissa * Nat.pow 5 (-exponent).toNat, exponent)

/-- The **shortest decimal** of a positive finite value `mantissa * 2 ^ exponent`, as
digits and a power of ten. -/
def shortest (mantissa : Nat) (exponent : Int) : Nat × Int :=
  let (num, den) := scaleByTwo mantissa 1 (-exponent)
  let order := decimalOrder num den
  let x : Double := .finite false mantissa exponent
  let found := (List.range 17).findSome? fun i =>
    decimalOfLength? x num den order (i + 1)
  let (digits, unit) := found.getD (exactDecimal mantissa exponent)
  stripZeros (decimalLength digits) digits unit

/-- The words for the values that have no digits. -/
structure Words where
  nan : String
  infinity : String

/-- The words in plain text. -/
def Words.plain : Words := ⟨"nan", "inf"⟩

/-- The words in a JSON text. -/
def Words.json : Words := ⟨"NaN", "Infinity"⟩

/-- A text of zeros. -/
def zeros (n : Nat) : String := String.ofList (List.replicate n '0')

/-- A decimal exponent: a sign and at least two digits. -/
def exponentText (e : Int) : String :=
  let sign := if e < 0 then "-" else "+"
  let digits := toString e.natAbs
  let padded := if digits.length < 2 then "0" ++ digits else digits
  sign ++ padded

/-- The layout of `digits * 10 ^ exponent`. With the point before the first digit moved
`point` places to the right, the text is positional for `-4 < point ≤ 16`. -/
def layout (digits : Nat) (exponent : Int) : String :=
  let text := toString digits
  let point : Int := (text.length : Int) + exponent
  if point ≤ -4 ∨ 16 < point then
    let lead := (text.take 1).toString
    let rest := (text.drop 1).toString
    let fraction := if rest.isEmpty then "" else "." ++ rest
    lead ++ fraction ++ "e" ++ exponentText (point - 1)
  else if point ≤ 0 then
    "0." ++ zeros (-point).toNat ++ text
  else if (text.length : Int) ≤ point then
    text ++ zeros (point.toNat - text.length) ++ ".0"
  else
    (text.take point.toNat).toString ++ "." ++ (text.drop point.toNat).toString

/-- The text of a double. -/
def text (words : Words) : Double → String
  | .nan => words.nan
  | .infinite negative => (if negative then "-" else "") ++ words.infinity
  | .finite negative mantissa exponent =>
    let sign := if negative then "-" else ""
    if mantissa = 0 then sign ++ "0.0"
    else
      let (digits, unit) := shortest mantissa exponent
      sign ++ layout digits unit

end Double

end TreeLint
