import TreeLint.Number.Double

/-!
# JSON Values

`Value ι` is a JSON value whose objects carry a label of type `ι`. Two instances are used:

* `Json`, with no labels, is data: what a text denotes and what a report writes;
* `Document`, with numbers for labels, is a value in which one object may stand in several
  places. Two occurrences of a label are **one object, used twice**.

## Convention

The members of an object are in the order in which they were first written, and no key
occurs twice: `setMember` gives a repeated key its last value at its first place.
-/

namespace TreeLint

/-- A JSON value whose objects are labelled. Whole numbers are of any size and are not
doubles. -/
inductive Value (ι : Type) where
  | null
  | bool (b : Bool)
  | int (n : Int)
  | float (x : Double)
  | str (s : String)
  | arr (items : List (Value ι))
  | obj (label : ι) (members : List (String × Value ι))
  deriving Inhabited

/-- A JSON value as data. -/
abbrev Json := Value Unit

/-- A JSON value whose objects have an identity. -/
abbrev Document := Value Nat

/-- The value under a key. -/
def lookup? {α : Type} (key : String) : List (String × α) → Option α
  | [] => none
  | (k, v) :: rest => if k = key then some v else lookup? key rest

/-- The members with `key` bound to `value`: in place of an earlier binding if there is
one, and at the end otherwise. -/
def setMember {α : Type} (key : String) (value : α) : List (String × α) → List (String × α)
  | [] => [(key, value)]
  | (k, v) :: rest => if k = key then (k, value) :: rest else (k, v) :: setMember key value rest

namespace Value

variable {ι : Type}

/-- The word for the type of a value in messages. -/
def typeName : Value ι → String
  | .null => "NoneType"
  | .bool _ => "bool"
  | .int _ => "int"
  | .float _ => "float"
  | .str _ => "str"
  | .arr _ => "list"
  | .obj .. => "dict"

/-- Whether the value is `null`. -/
def isNull : Value ι → Bool
  | .null => true
  | _ => false

/-- Whether the value counts as absent where a default may stand in its place: `null`,
`false`, zero, and everything empty. -/
def isBlank : Value ι → Bool
  | .null => true
  | .bool b => !b
  | .int n => n == 0
  | .float x => x.isZero
  | .str s => s.isEmpty
  | .arr items => items.isEmpty
  | .obj _ members => members.isEmpty

/-- The text of a string value. -/
def str? : Value ι → Option String
  | .str s => some s
  | _ => none

/-- Whether the value is literally `true`. -/
def isTrue : Value ι → Bool
  | .bool b => b
  | _ => false

/-- The value of a member of an object; other values have no members. -/
def get? (key : String) : Value ι → Option (Value ι)
  | .obj _ members => lookup? key members
  | _ => none

/-- The value of a member, `null` when there is none. -/
def getD (key : String) (v : Value ι) : Value ι := (v.get? key).getD .null

mutual

/-- The data of a value, without its labels. -/
def erase : Value ι → Json
  | .null => .null
  | .bool b => .bool b
  | .int n => .int n
  | .float x => .float x
  | .str s => .str s
  | .arr items => .arr (eraseItems items)
  | .obj _ members => .obj () (eraseMembers members)

/-- The items of an array, without labels. -/
def eraseItems : List (Value ι) → List Json
  | [] => []
  | v :: rest => v.erase :: eraseItems rest

/-- The members of an object, without labels. -/
def eraseMembers : List (String × Value ι) → List (String × Json)
  | [] => []
  | (k, v) :: rest => (k, v.erase) :: eraseMembers rest

end

mutual

/-- The document in which every object of the value is an object of its own. Labels count
up from `next` in the order in which the objects are written. -/
def labelFrom (next : Nat) : Value ι → Document × Nat
  | .null => (.null, next)
  | .bool b => (.bool b, next)
  | .int n => (.int n, next)
  | .float x => (.float x, next)
  | .str s => (.str s, next)
  | .arr items =>
    let (items, next) := labelItemsFrom next items
    (.arr items, next)
  | .obj _ members =>
    let (members, after) := labelMembersFrom (next + 1) members
    (.obj next members, after)

/-- The items of an array with fresh labels. -/
def labelItemsFrom (next : Nat) : List (Value ι) → List Document × Nat
  | [] => ([], next)
  | v :: rest =>
    let (v, next) := v.labelFrom next
    let (rest, next) := labelItemsFrom next rest
    (v :: rest, next)

/-- The members of an object with fresh labels. -/
def labelMembersFrom (next : Nat) : List (String × Value ι) → List (String × Document) × Nat
  | [] => ([], next)
  | (k, v) :: rest =>
    let (v, next) := v.labelFrom next
    let (rest, next) := labelMembersFrom next rest
    ((k, v) :: rest, next)

end

/-- The document of a value none of whose objects is shared. -/
def toDocument (v : Value ι) : Document := (v.labelFrom 0).1

mutual

/-- How many values a value is made of, itself included. -/
def weight : Value ι → Nat
  | .arr items => 1 + weightItems items
  | .obj _ members => 1 + weightMembers members
  | _ => 1

/-- The weight of the items of an array. -/
def weightItems : List (Value ι) → Nat
  | [] => 0
  | v :: rest => v.weight + weightItems rest

/-- The weight of the members of an object. -/
def weightMembers : List (String × Value ι) → Nat
  | [] => 0
  | (_, v) :: rest => v.weight + weightMembers rest

end

end Value

end TreeLint
