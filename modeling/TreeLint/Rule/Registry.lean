import TreeLint.Rule.ClearBeforeType
import TreeLint.Rule.HookPairing
import TreeLint.Rule.PageSingleton
import TreeLint.Settings.Fault

/-!
# The Registry of Rules

Rules are registered under an id, and found by id or by name: an id goes before a name, and
of several rules with one name the first registered is meant. Registering an id again puts
the new rule in the place of the old one.

`Registry.enabled` selects the rules of a run. It first asks whether every rule that the
settings or the selection name is known, so a misspelt name is never silently ignored.
-/

namespace TreeLint

/-- A registered rule: its identity, and how settings make it. -/
structure RuleSpec where
  id : String
  name : String
  build : Settings → Rule

/-- Registered rules, in order of their first registration, each id once. -/
abbrev Registry := List RuleSpec

namespace Registry

/-- The registry with one more rule. -/
def register (spec : RuleSpec) : Registry → Registry
  | [] => [spec]
  | s :: rest => if s.id = spec.id then spec :: rest else s :: register spec rest

/-- The rules that come with the library. -/
def builtin : Registry :=
  [{ id := "PAGE001", name := "enforce-page-singleton",
     build := fun s => PageSingleton.rule s.pageSuffix s.requiredFieldName },
   { id := "CY001", name := "require-after-with-before",
     build := fun s => HookPairing.rule s.hookPairs },
   { id := "CY002", name := "require-clear-before-type",
     build := fun _ => ClearBeforeType.rule }]

/-- The ids, in order of registration. -/
def ids (registry : Registry) : List String := registry.map RuleSpec.id

/-- The rule with an id, else the first rule with that name. -/
def find? (registry : Registry) (key : String) : Option RuleSpec :=
  match List.find? (fun spec => spec.id == key) registry with
  | some spec => some spec
  | none => List.find? (fun spec => spec.name == key) registry

/-- The rule that a key means. -/
def resolve (registry : Registry) (key : String) : Except ConfigFault RuleSpec :=
  match registry.find? key with
  | some spec => .ok spec
  | none => .error (.unknownRule key registry.ids)

/-- All rules, by id. -/
def sorted (registry : Registry) : List RuleSpec :=
  registry.mergeSort fun a b => decide (a.id ≤ b.id)

/-- The rules to run: those of the selection, or all if it is empty, by id and without those
that are switched off. -/
def enabled (registry : Registry) (settings : Settings) (only : List String) :
    Except ConfigFault (List RuleSpec) := do
  let _ ← settings.rules.mapM fun (key, _) => registry.resolve key
  let wanted ← only.mapM registry.resolve
  let selected := registry.sorted.filter fun spec =>
    only.isEmpty || wanted.any fun w => w.id == spec.id
  return selected.filter fun spec => settings.levelFor spec.id spec.name != .off

end Registry

end TreeLint
