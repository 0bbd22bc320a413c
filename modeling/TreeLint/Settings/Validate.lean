import TreeLint.Settings.Basic
import TreeLint.Settings.Data
import TreeLint.Settings.Fault
import TreeLint.Text.Alphanumeric
import TreeLint.Text.Utf8

/-!
# Validating Settings

`Settings.ofData` reads settings from configuration data. It does not stop at the first
fault: the problems of all fields are listed, field by field in a fixed order, and after
them the entries that belong to no field, in the order in which they are written. Within a
field the shape is looked at first; what the names say is asked only when the shape is right,
and the first name that will not do is the one reported.

Nothing is turned into a text that is not one, except that bytes stand for the text that
they encode.

## What is assumed

How data is checked against a record with fields is a convention that the settings are subject to,
and is taken as it is: that all fields are looked at, in one order, and stray entries after them;
that a list, a tuple and a set will do where items are wanted, and bytes where a text is; and what
is said about a value that will not do, which for the shape of a value is always one of the texts
below. What makes a name or a suffix acceptable is up to the settings, and is reported behind
`Value error,`.
-/

namespace TreeLint

/-- The outcome of looking at a value: what it means, or everything that is wrong with it. -/
abbrev Checked (α : Type) := Except (List Problem) α

namespace Checked

variable {α : Type}

/-- A single problem. -/
def problem (path : List String) (reason : String) : Checked α := .error [⟨path, reason⟩]

/-- A problem with what a value of the right shape says. -/
def valueProblem (path : List String) (reason : String) : Checked α :=
  problem path ("Value error, " ++ reason)

/-- The problems of an outcome. -/
def problems : Checked α → List Problem
  | .ok _ => []
  | .error ps => ps

/-- The meanings of a list of outcomes, or all the problems among them. -/
def all : List (Checked α) → Checked (List α)
  | [] => .ok []
  | .ok a :: rest =>
    match all rest with
    | .ok as => .ok (a :: as)
    | .error ps => .error ps
  | .error ps :: rest =>
    match all rest with
    | .ok _ => .error ps
    | .error qs => .error (ps ++ qs)

end Checked

namespace Data

/-- A text. -/
def text (path : List String) : Data → Checked String
  | .str s => .ok s
  | .bytes bs =>
    match Text.decode bs with
    | .ok cs => .ok (String.ofList cs)
    | .error _ => .problem path
      "Input should be a valid string, unable to parse raw data as a unicode string"
  | _ => .problem path "Input should be a valid string"

/-- The items of a value that holds some in sequence. -/
def items? : Data → Option (List Data)
  | .list items | .tuple items | .set items => some items
  | _ => none

/-- Two texts. A third item is the only problem that is then reported. -/
def textPair (path : List String) (d : Data) : Checked (String × String) :=
  match d.items? with
  | none => .problem path "Input should be a valid tuple"
  | some items =>
    if 2 < items.length then
      .problem path s!"Tuple should have at most 2 items after validation, not {items.length}"
    else
      let item (i : Nat) : Checked String :=
        match items[i]? with
        | some d => d.text (path ++ [toString i])
        | none => .problem (path ++ [toString i]) "Field required"
      match item 0, item 1 with
      | .ok a, .ok b => .ok (a, b)
      | first, second => .error (first.problems ++ second.problems)

/-- A level. -/
def level (path : List String) : Data → Checked Level
  | .str s =>
    match Level.ofWord? s with
    | some level => .ok level
    | none => .problem path "Input should be 'error', 'warn' or 'off'"
  | _ => .problem path "Input should be 'error', 'warn' or 'off'"

end Data

/-! ### The fields -/

/-- A pair of hooks whose names will do: identifiers, and two different ones. -/
def HookPair.ofNames (setup teardown : String) : Checked HookPair :=
  match [setup, teardown].find? fun name => !Text.isIdentifier name with
  | some name =>
    .valueProblem ["hook_pairs"] s!"hook name {Text.quoted name} is not an identifier"
  | none =>
    if setup = teardown then
      .valueProblem ["hook_pairs"]
        s!"setup and teardown hooks must differ, got {Text.quoted setup} twice"
    else .ok ⟨setup, teardown⟩

namespace Settings

/-- The pairs of hooks. -/
def hookPairsOf (d : Data) : Checked (List HookPair) :=
  match d.items? with
  | none => .problem ["hook_pairs"] "Input should be a valid list"
  | some items => do
    let pairs ← Checked.all (items.zipIdx.map fun (d, i) => d.textPair ["hook_pairs", toString i])
    pairs.mapM fun (setup, teardown) => HookPair.ofNames setup teardown

/-- The suffix of page classes, which is not empty. -/
def pageSuffixOf (d : Data) : Checked String := do
  let suffix ← d.text ["page_suffix"]
  if suffix.isEmpty then .valueProblem ["page_suffix"] "page_suffix must not be empty"
  else return suffix

/-- The name of the singleton field, which is an identifier. -/
def requiredFieldNameOf (d : Data) : Checked String := do
  let name ← d.text ["required_field_name"]
  if Text.isIdentifier name then return name
  else
    .valueProblem ["required_field_name"]
      s!"required_field_name {Text.quoted name} is not an identifier"

/-- One entry of the levels. -/
def ruleEntryOf (key value : Data) : Checked (String × Level) :=
  match key.text ["rules", key.keyText, "[key]"], value.level ["rules", key.keyText] with
  | .ok key, .ok level => .ok (key, level)
  | name, level => .error (name.problems ++ level.problems)

/-- The levels of rules. -/
def rulesOf (d : Data) : Checked (List (String × Level)) :=
  match d with
  | .mapping entries => do
    let levels ← Checked.all (entries.map fun (key, value) => ruleEntryOf key value)
    return levels.foldl (fun acc (key, level) => setMember key level acc) []
  | _ => .problem ["rules"] "Input should be a valid dictionary"

/-- The fields, in the order in which their problems are listed. -/
def fieldNames : List String := ["hook_pairs", "page_suffix", "required_field_name", "rules"]

/-- The problems of the entries that belong to no field. -/
def strayProblems (entries : List (Data × Data)) : List Problem :=
  entries.filterMap fun (key, _) =>
    match key with
    | .str k => if fieldNames.contains k then none else some ⟨[k], "Extra inputs are not permitted"⟩
    | _ => some ⟨[key.keyText], "Keys should be strings"⟩

/-- The meaning of a field, or its default when it is left out. -/
def fieldOr {α : Type} (entries : List (Data × Data)) (name : String) (default : α)
    (read : Data → Checked α) : Checked α :=
  match Data.get? name entries with
  | some d => read d
  | none => .ok default

/-- The settings that the entries of a mapping give. -/
def ofEntries (entries : List (Data × Data)) : Checked Settings :=
  let base : Settings := {}
  let hookPairs := fieldOr entries "hook_pairs" base.hookPairs hookPairsOf
  let pageSuffix := fieldOr entries "page_suffix" base.pageSuffix pageSuffixOf
  let requiredFieldName :=
    fieldOr entries "required_field_name" base.requiredFieldName requiredFieldNameOf
  let rules := fieldOr entries "rules" base.rules rulesOf
  match hookPairs, pageSuffix, requiredFieldName, rules, strayProblems entries with
  | .ok hookPairs, .ok pageSuffix, .ok requiredFieldName, .ok rules, [] =>
    .ok { hookPairs, pageSuffix, requiredFieldName, rules }
  | hookPairs, pageSuffix, requiredFieldName, rules, stray =>
    .error (hookPairs.problems ++ pageSuffix.problems ++ requiredFieldName.problems ++
      rules.problems ++ stray)

/-- The **settings that data give**. -/
def ofData (data : Data) : Except ConfigFault Settings :=
  match data with
  | .mapping entries => (ofEntries entries).mapError .invalid
  | d => .error (.notAMapping d.typeName)

end Settings

end TreeLint
