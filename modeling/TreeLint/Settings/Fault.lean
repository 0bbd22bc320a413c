/-!
# Configuration Faults

Everything that can be wrong with a configuration, from the file that is not there to the
rule that nobody knows, and the words for each.
-/

namespace TreeLint

/-- A value of a configuration that was refused: where it stands, and why. -/
structure Problem where
  path : List String
  reason : String
  deriving DecidableEq, Repr

/-- The text of a problem. -/
def Problem.message (p : Problem) : String :=
  let place := ".".intercalate p.path
  let place := if place.isEmpty then "config" else place
  s!"{place}: {p.reason}"

/-- Why there is no configuration to work with. -/
inductive ConfigFault where
  | notFound (path : String)
  | invalidYaml (path : String)
  | notAMapping (type : String)
  | invalid (problems : List Problem)
  | unknownRule (key : String) (available : List String)
  deriving DecidableEq, Repr

/-- The text of the fault. -/
def ConfigFault.message : ConfigFault → String
  | .notFound path => s!"Config file not found: {path}"
  | .invalidYaml path => s!"Invalid YAML in {path}"
  | .notAMapping type => s!"Configuration must be a mapping, got {type}"
  | .invalid problems =>
    "Invalid configuration: " ++ "; ".intercalate (problems.map Problem.message)
  | .unknownRule key available =>
    let known := if available.isEmpty then "none" else ", ".intercalate available
    s!"Unknown rule '{key}'. Available: {known}"

end TreeLint
