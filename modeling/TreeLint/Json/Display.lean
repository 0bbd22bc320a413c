import TreeLint.Json.Value
import TreeLint.Number.Decimal
import TreeLint.Text.Quoted

/-!
# Values in Messages

The text of a JSON value inside a message. A string stands for itself at the top and is
quoted inside a list or an object; the constants are written `None`, `True` and `False`.

Whole numbers of more than `digitLimit` digits have no text.
-/

namespace TreeLint

/-- The greatest number of digits of a whole number that is read from or written as text. -/
def digitLimit : Nat := 4300

/-- A whole number has too many digits to be read (`found` says how many) or written. -/
inductive DigitLimit where
  | reading (found : Nat)
  | writing
  deriving DecidableEq, Repr

/-- The text of the fault. -/
def DigitLimit.message (e : DigitLimit) : String :=
  let found := match e with
    | .reading found => s!": value has {found} digits"
    | .writing => ""
  s!"Exceeds the limit ({digitLimit} digits) for integer string conversion{found}; use " ++
    "sys.set_int_max_str_digits() to increase the limit"

/-- The decimal text of a whole number. -/
def intText (n : Int) : Except DigitLimit String :=
  if Nat.pow 10 digitLimit ≤ n.natAbs then .error .writing else .ok (toString n)

namespace Value

variable {ι : Type}

mutual

/-- The text of a value inside a list or an object. -/
def quoted : Value ι → Except DigitLimit String
  | .null => .ok "None"
  | .bool b => .ok (if b then "True" else "False")
  | .int n => intText n
  | .float x => .ok (x.text .plain)
  | .str s => .ok (Text.quoted s)
  | .arr items => do
    let items ← quotedItems items
    return "[" ++ ", ".intercalate items ++ "]"
  | .obj _ members => do
    let members ← quotedMembers members
    return "\x7b" ++ ", ".intercalate members ++ "\x7d"

/-- The texts of the items of a list. -/
def quotedItems : List (Value ι) → Except DigitLimit (List String)
  | [] => .ok []
  | v :: rest => do
    let v ← v.quoted
    let rest ← quotedItems rest
    return v :: rest

/-- The texts of the members of an object. -/
def quotedMembers : List (String × Value ι) → Except DigitLimit (List String)
  | [] => .ok []
  | (k, v) :: rest => do
    let v ← v.quoted
    let rest ← quotedMembers rest
    return (Text.quoted k ++ ": " ++ v) :: rest

end

/-- The text of a value in a message. -/
def display : Value ι → Except DigitLimit String
  | .str s => .ok s
  | v => v.quoted

end Value

end TreeLint
