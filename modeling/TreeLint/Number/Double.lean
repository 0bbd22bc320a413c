/-!
# Binary Floating-Point Numbers

Numbers written with a fraction or an exponent are held with 53 significant bits. A
finite `Double` is a sign, a mantissa and a binary exponent, so that every operation
here is exact arithmetic on naturals followed by one rounding (`Double.ofRatio`), and
the order of a `Double` and an integer is decided without any rounding at all.

## Conventions

A finite value is `mantissa * 2 ^ exponent` with `mantissa < 2 ^ 53` and
`-1074 ≤ exponent`, and either `2 ^ 52 ≤ mantissa` or `exponent = -1074`. The values
made by `Double.ofRatio` have this form, which makes the form of a number unique. Zero
keeps its sign.
-/

namespace TreeLint

/-- A number of 53 significant bits, an infinity, or no number at all. -/
inductive Double where
  | nan
  | infinite (negative : Bool)
  | finite (negative : Bool) (mantissa : Nat) (exponent : Int)
  deriving DecidableEq, Repr, Inhabited

/-- The quotient `num / den` rounded to the nearest natural number; a half goes to the
even neighbour. -/
def roundDiv (num den : Nat) : Nat :=
  let q := num / den
  let r := num % den
  if 2 * r < den then q
  else if den < 2 * r then q + 1
  else if q % 2 = 0 then q else q + 1

/-- The fraction `num / den` divided by `2 ^ q`, again as a fraction. -/
def scaleByTwo (num den : Nat) (q : Int) : Nat × Nat :=
  if 0 ≤ q then (num, den * Nat.pow 2 q.toNat) else (num * Nat.pow 2 (-q).toNat, den)

/-- The fraction `num / den` multiplied by `10 ^ e`, again as a fraction. -/
def scaleByTen (num den : Nat) (e : Int) : Nat × Nat :=
  if 0 ≤ e then (num * Nat.pow 10 e.toNat, den) else (num, den * Nat.pow 10 (-e).toNat)

/-- The **binary order** of a positive fraction: the greatest `e` with
`2 ^ e ≤ num / den`. The difference of the two logarithms is this number or one more. -/
def binaryOrder (num den : Nat) : Int :=
  let e : Int := (num.log2 : Int) - (den.log2 : Int)
  let (n, d) := scaleByTwo num den e
  if n < d then e - 1 else e

namespace Double

/-- The zero of a sign. -/
def zero (negative : Bool) : Double := .finite negative 0 (-1074)

/-- The double nearest to `num / den`, a tie going to the even mantissa, with the given
sign; a magnitude beyond the range becomes an infinity. -/
def ofRatio (negative : Bool) (num den : Nat) : Double :=
  if num = 0 then zero negative
  else
    let q := max (binaryOrder num den - 52) (-1074)
    let (n, d) := scaleByTwo num den q
    let m := roundDiv n d
    let (m, q) := if m = Nat.pow 2 53 then (Nat.pow 2 52, q + 1) else (m, q)
    if 971 < q then .infinite negative else .finite negative m q

/-- How many decimal digits a natural number has; zero has one. -/
def decimalLength (n : Nat) : Nat := (Nat.toDigits 10 n).length

/-- The double nearest to `digits * 10 ^ exponent`. Exponents far outside the range are
answered at once, without writing out the power of ten. -/
def ofDecimal (negative : Bool) (digits : Nat) (exponent : Int) : Double :=
  if digits = 0 then zero negative
  else
    let order := (decimalLength digits : Int) + exponent
    if 400 < order then .infinite negative
    else if order < -400 then zero negative
    else
      let (n, d) := scaleByTen digits 1 exponent
      ofRatio negative n d

/-- Zero, of either sign. -/
def isZero : Double → Bool
  | .finite _ m _ => m == 0
  | _ => false

/-- A finite value as a fraction, and a value without one as itself. -/
def toRatio? : Double → Option (Int × Nat)
  | .finite negative m e =>
    let (n, d) := scaleByTwo m 1 (-e)
    some (if negative then -(n : Int) else (n : Int), d)
  | _ => none

/-- The sum with an integer, rounded once. A sum of zero is positive unless nothing was
added to a negative zero. -/
def addInt (x : Double) (k : Int) : Double :=
  if k = 0 then x
  else
    match x.toRatio? with
    | none => x
    | some (n, d) =>
      let s := n + k * d
      ofRatio (s < 0) s.natAbs d

/-- The double nearest to an integer. -/
def ofInt (k : Int) : Double := ofRatio (k < 0) k.natAbs 1

/-- The sum, rounded once. A sum of zero is positive unless both zeros were negative. -/
def add : Double → Double → Double
  | .nan, _ | _, .nan => .nan
  | .infinite a, .infinite b => if a = b then .infinite a else .nan
  | .infinite a, .finite .. | .finite .., .infinite a => .infinite a
  | .finite a m e, .finite b n f =>
    let signed (negative : Bool) (k : Nat) : Int := if negative then -(k : Int) else k
    let (m, d) := scaleByTwo m 1 (-e)
    let (n, c) := scaleByTwo n 1 (-f)
    let s := signed a m * c + signed b n * d
    if s = 0 then zero (a && b) else ofRatio (s < 0) s.natAbs (d * c)

/-- The product, rounded once. -/
def mul : Double → Double → Double
  | .nan, _ | _, .nan => .nan
  | .infinite a, .infinite b => .infinite (a != b)
  | .infinite a, .finite b m _ | .finite b m _, .infinite a =>
    if m = 0 then .nan else .infinite (a != b)
  | .finite a m e, .finite b n f =>
    let (m, d) := scaleByTwo m 1 (-e)
    let (n, c) := scaleByTwo n 1 (-f)
    ofRatio (a != b) (m * n) (d * c)

end Double

/-! ### Exact order of numbers -/

/-- The position of a number on the extended line, on which integers and doubles are
compared. -/
inductive Magnitude where
  | nan
  | infinite (negative : Bool)
  | ratio (num : Int) (den : Nat)
  deriving DecidableEq, Repr

/-- The position of an integer. -/
def Magnitude.ofInt (n : Int) : Magnitude := .ratio n 1

/-- The position of a double. -/
def Double.magnitude (x : Double) : Magnitude :=
  match x with
  | .nan => .nan
  | .infinite negative => .infinite negative
  | .finite .. =>
    match x.toRatio? with
    | some (n, d) => .ratio n d
    | none => .nan

/-- Whether one position lies strictly before another; nothing is before or after `nan`. -/
def Magnitude.lt : Magnitude → Magnitude → Bool
  | .nan, _ => false
  | _, .nan => false
  | .infinite a, .infinite b => a && !b
  | .infinite a, .ratio .. => a
  | .ratio .., .infinite b => !b
  | .ratio n d, .ratio m e => n * e < m * d

/-- Whether two positions coincide; `nan` coincides with nothing. -/
def Magnitude.eq : Magnitude → Magnitude → Bool
  | .infinite a, .infinite b => a == b
  | .ratio n d, .ratio m e => n * e == m * d
  | _, _ => false

end TreeLint
