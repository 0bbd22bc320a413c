/-!
# Characters

Sets of characters, the white space and the line ends of every script with the texts cut at them,
and the decimal digits of every script.

A set of characters is given by the ascending list of the code points at which membership changes:
the first bound is the first member, the second the first code point after it that is no member,
and so on. A code point is a member when the number of bounds at or below it is odd. Every script
with decimal digits has its ten in one row, so a table of the zeros gives the value of a digit.
-/

namespace TreeLint.Text

/-! ### Sets by their bounds -/

/-- Among the bounds with indices from `lo` to `hi`, the index of the first one above
`code`, or `hi`. -/
def firstAbove (bounds : Array Nat) (code lo hi : Nat) : Nat :=
  if h : lo < hi then
    let mid := lo + (hi - lo) / 2
    if bounds.getD mid 0 ≤ code then firstAbove bounds code (mid + 1) hi
    else firstAbove bounds code lo mid
  else lo
termination_by hi - lo
decreasing_by all_goals omega

/-- Whether a character belongs to the set with the given bounds. -/
def inBounds (bounds : Array Nat) (c : Char) : Bool :=
  firstAbove bounds c.toNat 0 bounds.size % 2 == 1

/-! ### Blanks and line ends -/

/-- The bounds of the white space. -/
def blankBounds : Array Nat := #[
    0x9, 0xe, 0x1c, 0x21, 0x85, 0x86, 0xa0, 0xa1, 0x1680, 0x1681, 0x2000, 0x200b, 0x2028, 0x202a,
    0x202f, 0x2030, 0x205f, 0x2060, 0x3000, 0x3001]

/-- The bounds of the characters that end a line. -/
def lineEndBounds : Array Nat := #[0xa, 0xe, 0x1c, 0x1f, 0x85, 0x86, 0x2028, 0x202a]

/-- Whether a character is white space. -/
def isBlank (c : Char) : Bool := inBounds blankBounds c

/-- Whether a character ends a line. -/
def isLineEnd (c : Char) : Bool := inBounds lineEndBounds c

/-- The text without the white space at its end. -/
def trimEnd (cs : List Char) : List Char := (cs.reverse.dropWhile isBlank).reverse

/-- The text without the white space at both ends. -/
def trim (cs : List Char) : List Char := trimEnd (cs.dropWhile isBlank)

/-- The maximal runs of characters that do not satisfy `p`, after those in `done` and the
unfinished `run`, both in reverse; runs may be empty. -/
def splitFrom (p : Char → Bool) (done : List (List Char)) (run : List Char) :
    List Char → List (List Char)
  | [] => (run.reverse :: done).reverse
  | c :: rest =>
    if p c then splitFrom p (run.reverse :: done) [] rest else splitFrom p done (c :: run) rest

/-- The text cut at every character that satisfies `p`, which is dropped. -/
def splitAll (p : Char → Bool) (cs : List Char) : List (List Char) := splitFrom p [] [] cs

/-- The words of a text: what stands between white space. -/
def words (cs : List Char) : List (List Char) :=
  (splitAll isBlank cs).filter fun w => !w.isEmpty

/-! ### Decimal digits -/

/-- The zeros of the scripts that have decimal digits. -/
def zeroDigits : List Nat := [
    0x30, 0x660, 0x6f0, 0x7c0, 0x966, 0x9e6, 0xa66, 0xae6, 0xb66, 0xbe6, 0xc66, 0xce6, 0xd66,
    0xde6, 0xe50, 0xed0, 0xf20, 0x1040, 0x1090, 0x17e0, 0x1810, 0x1946, 0x19d0, 0x1a80, 0x1a90,
    0x1b50, 0x1bb0, 0x1c40, 0x1c50, 0xa620, 0xa8d0, 0xa900, 0xa9d0, 0xa9f0, 0xaa50, 0xabf0,
    0xff10, 0x104a0, 0x10d30, 0x11066, 0x110f0, 0x11136, 0x111d0, 0x112f0, 0x11450, 0x114d0,
    0x11650, 0x116c0, 0x11730, 0x118e0, 0x11950, 0x11c50, 0x11d50, 0x11da0, 0x16a60, 0x16ac0,
    0x16b50, 0x1d7ce, 0x1d7d8, 0x1d7e2, 0x1d7ec, 0x1d7f6, 0x1e140, 0x1e2f0, 0x1e950, 0x1fbf0]

/-- The value of a decimal digit of some script. -/
def decimalDigit? (c : Char) : Option Nat :=
  (zeroDigits.find? fun first => first ≤ c.toNat && c.toNat < first + 10).map (c.toNat - ·)

/-- A character of a numeral in its ASCII form: a digit of any script is the digit of the same
value, and white space beyond ASCII is a space. -/
def numeralChar (c : Char) : Char :=
  if c.toNat < 128 then c
  else
    match decimalDigit? c with
    | some d => Char.ofNat ('0'.toNat + d)
    | none => if isBlank c then ' ' else c

/-- Whether an ASCII character can stand around a numeral. -/
def isNumeralBlank (c : Char) : Bool := c = ' ' || ('\t' ≤ c && c ≤ '\r')

/-- The **numeral** that a text writes: its characters in their ASCII form, without the blanks
around them. -/
def numeral (cs : List Char) : List Char :=
  (((cs.map numeralChar).dropWhile isNumeralBlank).reverse.dropWhile isNumeralBlank).reverse

end TreeLint.Text
