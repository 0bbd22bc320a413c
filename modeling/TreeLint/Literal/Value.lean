import TreeLint.Literal.Expr

/-!
# The Values of Expressions

Constants have values, and so do collections of what has values. Signs can stand before numbers,
and a number with an imaginary one after a sign is one number. `Expr.valued` says what else an
expression is wrong with: its value itself is not asked for, only its `Shape`, which tells what can
be an item of a set or a key of a mapping.
-/

namespace TreeLint.Literal

/-- What is known of a value. -/
inductive Shape where
  /-- A value that is not made of others. -/
  | simple
  | tuple (items : List Shape)
  | set
  | dict
  deriving Inhabited

mutual

/-- The type of the first part of a value that keeps it from being an item of a set. -/
def Shape.unhashable? : Shape → Option String
  | .simple => none
  | .tuple items => Shape.unhashableOf? items
  | .set => some "set"
  | .dict => some "dict"

/-- The type of the first such part of several values. -/
def Shape.unhashableOf? : List Shape → Option String
  | [] => none
  | s :: rest =>
    match s.unhashable? with
    | some type => some type
    | none => Shape.unhashableOf? rest

end

/-- Whether a value can be an item of a set. -/
def Shape.hashed (s : Shape) : Except ValueFault Unit :=
  match s.unhashable? with
  | some type => .error (.unhashable type)
  | none => .ok ()

/-- The least whole number that is too great for a number with fractions: halfway from the
greatest of those to the next power of two. -/
def wholeLimit : Nat := Nat.pow 2 1024 - Nat.pow 2 970

namespace Expr

/-- A number, if an expression is one without a sign. -/
def number? : Expr → Option Constant
  | .constant (.whole n) => some (.whole n)
  | .constant .decimal => some .decimal
  | .constant .imaginary => some .imaginary
  | _ => none

/-- A number, if an expression is one, with a sign or without. -/
def signedNumber? : Expr → Option Constant
  | .unary op e => if op = "+" || op = "-" then e.number? else none
  | e => e.number?

/-- Whether a number and an imaginary one are a number together. -/
def complex (left right : Expr) : Except ValueFault Shape :=
  match left.signedNumber?, right.number? with
  | some (.whole n), some .imaginary => if n < wholeLimit then .ok .simple else .error .tooLarge
  | some .decimal, some .imaginary => .ok .simple
  | _, _ => .error .notConstant

mutual

/-- What is known of the value of an expression, or why it has none. -/
def valued : Expr → Except ValueFault Shape
  | .constant _ => .ok .simple
  | .tuple items => return .tuple (← valuedAll items)
  | .set items => do
    hashedAll items
    return .set
  | .dict entries => do
    valuedEntries entries
    return .dict
  | .call (.name "set") [] => .ok .set
  | .unary op e =>
    if (unary op e).signedNumber?.isSome then .ok .simple else .error .notConstant
  | .binary op left right =>
    if op = "+" || op = "-" then complex left right else .error .notConstant
  | _ => .error .notConstant

/-- The same of expressions one after the other. -/
def valuedAll : List Expr → Except ValueFault (List Shape)
  | [] => .ok []
  | e :: rest => return (← valued e) :: (← valuedAll rest)

/-- Whether all of some expressions have values that can be items of a set. -/
def hashedAll : List Expr → Except ValueFault Unit
  | [] => .ok ()
  | e :: rest => do
    (← valued e).hashed
    hashedAll rest

/-- Whether entries have values, with keys that can be such. -/
def valuedEntries : List (Option Expr × Expr) → Except ValueFault Unit
  | [] => .ok ()
  | (none, _) :: _ => .error .unpacking
  | (some key, e) :: rest => do
    let key ← valued key
    let _ ← valued e
    key.hashed
    valuedEntries rest

end

end Expr

end TreeLint.Literal
