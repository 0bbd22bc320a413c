import TreeLint.Json.Value

/-!
# The Order of Values

Positions in a source are whatever a document holds, so they are compared as values:
numbers by size, with `true` and `false` counting as one and zero, texts by code points,
lists item by item. Values of other types, and values of two different types, have no
order, and comparing them fails with the names of the two types (`Incomparable`).

Inside a list, items that are the same are passed over, and there a value that is no
number is the same as itself.
-/

namespace TreeLint

/-- Two values of these types have no order. -/
structure Incomparable where
  left : String
  right : String
  deriving DecidableEq, Repr

/-- The text of the fault. -/
def Incomparable.message (e : Incomparable) : String :=
  s!"'<' not supported between instances of '{e.left}' and '{e.right}'"

namespace Value

variable {ι κ : Type}

/-- The position of a value on the number line, if it counts as a number. -/
def magnitude? : Value ι → Option Magnitude
  | .bool b => some (.ofInt (if b then 1 else 0))
  | .int n => some (.ofInt n)
  | .float x => some x.magnitude
  | _ => none

/-- Whether two values count as the same number. -/
def sameNumber (a : Value ι) (b : Value κ) : Bool :=
  match a.magnitude?, b.magnitude? with
  | some .nan, some .nan => true
  | some x, some y => x.eq y
  | _, _ => false

mutual

/-- Whether two values are the **same**: equal numbers, equal texts, lists of same items,
objects with the same members in any order. -/
def same : Value ι → Value κ → Bool
  | .null, .null => true
  | .str s, .str t => s == t
  | .arr xs, .arr ys => sameItems xs ys
  | .obj _ ms, .obj _ ns => ms.length == ns.length && sameMembers ms ns
  | a, b => a.sameNumber b

/-- Whether two lists have the same items. -/
def sameItems : List (Value ι) → List (Value κ) → Bool
  | [], [] => true
  | x :: xs, y :: ys => x.same y && sameItems xs ys
  | _, _ => false

/-- Whether every member on the left has the same value on the right. -/
def sameMembers : List (String × Value ι) → List (String × Value κ) → Bool
  | [], _ => true
  | (k, v) :: rest, ns =>
    (match lookup? k ns with
      | some w => v.same w
      | none => false) && sameMembers rest ns

end

mutual

/-- Whether one value comes **before** another. -/
def before : Value ι → Value κ → Except Incomparable Bool
  | .str s, .str t => .ok (decide (s < t))
  | .arr xs, .arr ys => itemsBefore xs ys
  | a, b =>
    match a.magnitude?, b.magnitude? with
    | some x, some y => .ok (x.lt y)
    | _, _ => .error ⟨a.typeName, b.typeName⟩

/-- The order of lists: the first pair of items that are not the same decides, and a list
comes before its own continuations. -/
def itemsBefore : List (Value ι) → List (Value κ) → Except Incomparable Bool
  | [], [] => .ok false
  | [], _ :: _ => .ok true
  | _ :: _, [] => .ok false
  | x :: xs, y :: ys => if x.same y then itemsBefore xs ys else x.before y

end

end Value

end TreeLint
