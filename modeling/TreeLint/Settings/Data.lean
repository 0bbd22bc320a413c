import TreeLint.Json.Display

/-!
# Configuration Data

The values that a configuration is written with. They are richer than JSON: a
configuration file can hold bytes, dates, sets and pairs, and the keys of its mappings are
not only texts.
-/

namespace TreeLint

/-- A value of a configuration. Dates are kept by the text that shows them, and a date with a time
also by the instant that it is, if it tells. -/
inductive Data where
  | null
  | bool (b : Bool)
  | int (n : Int)
  | float (x : Double)
  | str (s : String)
  | bytes (bs : List UInt8)
  | date (shown : String)
  | dateTime (shown : String) (instant : Option Int)
  | list (items : List Data)
  | tuple (items : List Data)
  | set (items : List Data)
  | mapping (entries : List (Data × Data))
  deriving Inhabited

namespace Data

mutual

/-- A JSON value as configuration data. -/
def ofJson : Json → Data
  | .null => .null
  | .bool b => .bool b
  | .int n => .int n
  | .float x => .float x
  | .str s => .str s
  | .arr items => .list (ofItems items)
  | .obj _ members => .mapping (ofMembers members)

/-- The items of a JSON list as configuration data. -/
def ofItems : List Json → List Data
  | [] => []
  | v :: rest => ofJson v :: ofItems rest

/-- The members of a JSON object as configuration data. -/
def ofMembers : List (String × Json) → List (Data × Data)
  | [] => []
  | (k, v) :: rest => (.str k, ofJson v) :: ofMembers rest

end

/-- The word for the type of a value in messages. -/
def typeName : Data → String
  | .null => "NoneType"
  | .bool _ => "bool"
  | .int _ => "int"
  | .float _ => "float"
  | .str _ => "str"
  | .bytes _ => "bytes"
  | .date _ => "date"
  | .dateTime .. => "datetime"
  | .list _ => "list"
  | .tuple _ => "tuple"
  | .set _ => "set"
  | .mapping _ => "dict"

/-- Whether the value counts as no configuration at all: `null`, `false`, zero, and
everything empty. -/
def isBlank : Data → Bool
  | .null => true
  | .bool b => !b
  | .int n => n == 0
  | .float x => x.isZero
  | .str s => s.isEmpty
  | .bytes bs => bs.isEmpty
  | .date _ | .dateTime .. => false
  | .list items | .tuple items | .set items => items.isEmpty
  | .mapping entries => entries.isEmpty

/-- One byte of a quoted text of bytes. -/
def quoteByte (quote : Char) (b : UInt8) : List Char :=
  let c := Char.ofNat b.toNat
  if c == quote || c == '\\' then ['\\', c]
  else if c == '\n' then ['\\', 'n']
  else if c == '\r' then ['\\', 'r']
  else if c == '\t' then ['\\', 't']
  else if 0x20 ≤ b && b < 0x7f then [c]
  else '\\' :: 'x' :: Text.hexPadded 2 b.toNat

/-- The text of a key of a mapping where it is named as a place. -/
def keyText : Data → String
  | .str s => s
  | .bool b => if b then "1" else "0"
  | .int n => toString n
  | .null => "None"
  | .float x => x.text .plain
  | .date shown | .dateTime shown _ => shown
  | .bytes bs =>
    let quote := Text.quoteFor (bs.map fun b => Char.ofNat b.toNat)
    String.ofList ('b' :: quote :: (bs.flatMap (quoteByte quote) ++ [quote]))
  | d => d.typeName

/-- The value under a text key of a mapping. -/
def get? (key : String) : List (Data × Data) → Option Data
  | [] => none
  | (.str k, v) :: rest => if k = key then some v else get? key rest
  | _ :: rest => get? key rest

end Data

end TreeLint
