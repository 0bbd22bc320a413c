import TreeLint.Json.Display

/-!
# Writing JSON

`Json.print` writes a value over several lines, two blanks deeper for every level, with
ASCII characters only: every other character is written by its code units.

Values that stand one inside the other are written by calls that do, so that there are values too
deep to be written. How deep is too deep is up to the machine: `reaches` says whether a value can
be written at all.
-/

namespace TreeLint.Json

/-- A code unit as an escape of four hexadecimal digits. -/
def unitEscape (n : Nat) : List Char := '\\' :: 'u' :: Text.hexPadded 4 n

/-- One character of a string. -/
def printChar (c : Char) : List Char :=
  if c == '"' then ['\\', '"']
  else if c == '\\' then ['\\', '\\']
  else if c == '\n' then ['\\', 'n']
  else if c == '\r' then ['\\', 'r']
  else if c == '\t' then ['\\', 't']
  else if c == '\x0c' then ['\\', 'f']
  else if c == '\x08' then ['\\', 'b']
  else if 0x20 ≤ c.toNat && c.toNat < 0x7f then [c]
  else if c.toNat < 0x10000 then unitEscape c.toNat
  else
    let n := c.toNat - 0x10000
    unitEscape (0xd800 + n / 1024) ++ unitEscape (0xdc00 + n % 1024)

/-- A string between its quotes. -/
def printString (s : String) : List Char := '"' :: (s.toList.flatMap printChar ++ ['"'])

/-- The start of a line at a level. -/
def newLine (level : Nat) : List Char := '\n' :: List.replicate (2 * level) ' '

mutual

/-- A value whose inner lines are at `level + 1`. -/
def printValue (level : Nat) : Json → Except DigitLimit (List Char)
  | .null => .ok "null".toList
  | .bool b => .ok (if b then "true".toList else "false".toList)
  | .int n => do return (← intText n).toList
  | .float x => .ok (x.text .json).toList
  | .str s => .ok (printString s)
  | .arr [] => .ok ['[', ']']
  | .arr (v :: rest) => do
    let first ← printValue (level + 1) v
    let others ← printItems (level + 1) rest
    return '[' :: (newLine (level + 1) ++ first ++ others ++ newLine level ++ [']'])
  | .obj _ [] => .ok ['\x7b', '\x7d']
  | .obj _ ((k, v) :: rest) => do
    let first ← printValue (level + 1) v
    let others ← printMembers (level + 1) rest
    return '\x7b' :: (newLine (level + 1) ++ printString k ++ [':', ' '] ++ first ++ others ++
      newLine level ++ ['\x7d'])

/-- The items of a list after the first. -/
def printItems (level : Nat) : List Json → Except DigitLimit (List Char)
  | [] => .ok []
  | v :: rest => do
    let v ← printValue level v
    let rest ← printItems level rest
    return ',' :: (newLine level ++ v ++ rest)

/-- The members of an object after the first. -/
def printMembers (level : Nat) : List (String × Json) → Except DigitLimit (List Char)
  | [] => .ok []
  | (k, v) :: rest => do
    let v ← printValue level v
    let rest ← printMembers level rest
    return ',' :: (newLine level ++ printString k ++ [':', ' '] ++ v ++ rest)

end

/-- Why a value has no text. -/
inductive PrintFault where
  | tooManyDigits (fault : DigitLimit)
  /-- The value is nested deeper than the machine can follow. -/
  | tooDeep
  deriving DecidableEq, Repr

/-- The **text of a value**, on a machine that reaches some values to their depth. -/
def print (reaches : Json → Bool) (v : Json) : Except PrintFault String :=
  if reaches v then ((printValue 0 v).map String.ofList).mapError .tooManyDigits
  else .error .tooDeep

end TreeLint.Json
