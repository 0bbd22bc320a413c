import TreeLint.Literal.Fault

/-!
# Numbers in a Literal

Where a number ends. Digits may be parted by single underscores. A letter right after a number is
a fault, unless it starts one of a few words that may follow a value.
-/

namespace TreeLint.Literal

/-- Whether a character can stand in a name, as far as that matters for where the name ends. -/
def isNameLike (c : Char) : Bool := c.isAlphanum || c = '_' || 0x80 ≤ c.toNat

/-- The words that may follow a number without a blank. -/
def wordsAfterNumber : List String := ["and", "else", "for", "or", "not"]

/-- The letters that may follow a number without a blank, whatever comes after them. -/
def lettersAfterNumber : List String := ["if", "in", "is"]

/-- Whether a word that may follow a number starts here. -/
def startsWordAfterNumber (cs : List Char) : Bool :=
  (wordsAfterNumber.any fun word =>
    word.toList.isPrefixOf cs && !((cs.drop word.length).head?.any isNameLike)) ||
  lettersAfterNumber.any fun letters => letters.toList.isPrefixOf cs

/-- A number ends here, unless something follows that could belong to it. -/
def endNumeral (kind : NumeralKind) (taken rest : List Char) :
    Except TokenFault (List Char × List Char) :=
  if rest.head?.any isNameLike && !startsWordAfterNumber rest then .error (.badNumeral kind)
  else .ok (taken, rest)

/-- Digits in rows that are parted by underscores, from the first one on. `isDigit` tells digits;
one that is missing after an underscore is a fault. -/
def digitRows (fuel : Nat) (isDigit : Char → Bool) (missing : List Char → TokenFault)
    (taken rest : List Char) : Except TokenFault (List Char × List Char) :=
  match fuel with
  | 0 => .ok (taken, rest)
  | fuel + 1 =>
    let run := rest.takeWhile isDigit
    match rest.drop run.length with
    | '_' :: rest =>
      if rest.head?.any isDigit then
        digitRows fuel isDigit missing (taken ++ run ++ ['_']) rest
      else .error (missing rest)
    | rest => .ok (taken ++ run, rest)

/-- Decimal digits. -/
def decimalRows (taken rest : List Char) : Except TokenFault (List Char × List Char) :=
  digitRows (rest.length + 1) Char.isDigit (fun _ => .badNumeral .decimal) taken rest

/-- The letter of an imaginary number, if it is here, and the end of the number. -/
def endImaginary (taken rest : List Char) : Except TokenFault (List Char × List Char) :=
  match rest with
  | 'j' :: rest => endNumeral .imaginary (taken ++ ['j']) rest
  | 'J' :: rest => endNumeral .imaginary (taken ++ ['J']) rest
  | rest => endNumeral .decimal taken rest

/-- The exponent, if it is here, and the end of the number. Without digits the letter is not part
of the number. -/
def endExponent (taken rest : List Char) : Except TokenFault (List Char × List Char) :=
  match rest with
  | e :: after =>
    if e = 'e' || e = 'E' then
      let (sign, digits) := match after with
        | '+' :: digits => (['+'], digits)
        | '-' :: digits => (['-'], digits)
        | digits => ([], digits)
      if digits.head?.any Char.isDigit then do
        let (taken, rest) ← decimalRows (taken ++ e :: sign) digits
        endImaginary taken rest
      else if sign.isEmpty then endNumeral .decimal taken rest
      else .error (.badNumeral .decimal)
    else endImaginary taken rest
  | [] => endImaginary taken rest

/-- What comes after the point of a number, and the end of the number. -/
def endFraction (taken rest : List Char) : Except TokenFault (List Char × List Char) := do
  if rest.head?.any Char.isDigit then
    let (taken, rest) ← decimalRows taken rest
    endExponent taken rest
  else endExponent taken rest

/-- What comes after the whole part of a number, and the end of the number. -/
def endWhole (taken rest : List Char) : Except TokenFault (List Char × List Char) :=
  match rest with
  | '.' :: rest => endFraction (taken ++ ['.']) rest
  | rest => endExponent taken rest

/-- A number in a base of its own, after the letter that names the base. -/
def baseNumeral (kind : NumeralKind) (isDigit : Char → Bool) (taken rest : List Char) :
    Except TokenFault (List Char × List Char) := do
  let fault (rest : List Char) : TokenFault :=
    match kind, rest with
    | .hexadecimal, _ => .badNumeral kind
    | _, c :: _ => if c.isDigit then .badDigit c kind else .badNumeral kind
    | _, [] => .badNumeral kind
  let (taken, rest) := match rest with
    | '_' :: rest => (taken ++ ['_'], rest)
    | rest => (taken, rest)
  if !(rest.head?.any isDigit) then .error (fault rest)
  let (taken, rest) ← digitRows (rest.length + 1) isDigit fault taken rest
  if rest.head?.any Char.isDigit then .error (fault rest)
  endNumeral kind taken rest

/-- A number that starts with a zero and a digit or underscore, or only with a zero. Other digits
may follow zeros only where the number goes on after them. -/
def zeroNumeral (rest : List Char) : Except TokenFault (List Char × List Char) := do
  let (taken, rest) ← decimalRows [] ('0' :: rest)
  let isZero := taken.all fun c => c = '0' || c = '_'
  let goesOn := ['.', 'e', 'E', 'j', 'J'].contains (rest.headD ' ')
  if isZero || goesOn then endWhole taken rest else .error .leadingZeros

/-- Whether a character is a hexadecimal digit. -/
def isHexDigit (c : Char) : Bool :=
  c.isDigit || ('a' ≤ c && c ≤ 'f') || ('A' ≤ c && c ≤ 'F')

/-- The **number** that starts here, with a digit or with a point before one, and what comes after
it. -/
def numeral (cs : List Char) : Except TokenFault (List Char × List Char) :=
  match cs with
  | '.' :: rest => endFraction ['.'] rest
  | '0' :: c :: rest =>
    if c = 'x' || c = 'X' then
      baseNumeral .hexadecimal isHexDigit ['0', c] rest
    else if c = 'o' || c = 'O' then baseNumeral .octal (fun d => '0' ≤ d && d < '8') ['0', c] rest
    else if c = 'b' || c = 'B' then baseNumeral .binary (fun d => d = '0' || d = '1') ['0', c] rest
    else zeroNumeral (c :: rest)
  | cs => do
    let (taken, rest) ← decimalRows [] cs
    endWhole taken rest

end TreeLint.Literal
