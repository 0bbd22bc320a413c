/-!
# Settings

What a run can be told: which hooks belong together, how page classes and their singleton
field are called, and at which level each rule runs.
-/

namespace TreeLint

/-- The level at which a rule runs. -/
inductive Level where
  | error
  | warn
  | off
  deriving DecidableEq, Repr, Inhabited

/-- The word for a level. -/
def Level.word : Level → String
  | .error => "error"
  | .warn => "warn"
  | .off => "off"

/-- The level with a given word. -/
def Level.ofWord? : String → Option Level
  | "error" => some .error
  | "warn" => some .warn
  | "off" => some .off
  | _ => none

/-- A setup hook and the teardown hook that it asks for. -/
structure HookPair where
  setup : String
  teardown : String
  deriving DecidableEq, Repr, Inhabited

/-- The settings of a run. `rules` gives levels to rule ids and rule names, in the order in
which they were written and each once. -/
structure Settings where
  hookPairs : List HookPair := [⟨"before", "after"⟩]
  pageSuffix : String := "Page"
  requiredFieldName : String := "INSTANCE"
  rules : List (String × Level) := []
  deriving DecidableEq, Repr, Inhabited

/-- The level of a rule: the entry for its id, else the entry for its name, else `error`. -/
def Settings.levelFor (settings : Settings) (id name : String) : Level :=
  match settings.rules.lookup id with
  | some level => level
  | none => (settings.rules.lookup name).getD .error

end TreeLint
