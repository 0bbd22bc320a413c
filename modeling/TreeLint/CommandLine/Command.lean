import TreeLint.CommandLine.Arguments

/-!
# Commands

What a command line asks for: to lint files, to list the rules, or to say which version this is.
-/

namespace TreeLint.CommandLine

/-- What to lint, and how. -/
structure LintOptions where
  files : List String
  config : Option String := none
  rules : List String := []
  format : String := "terminal"
  debug : Bool := false
  deriving DecidableEq, Repr

/-- A command. -/
inductive Command where
  | help
  | version
  | rules (config : Option String)
  | lint (options : LintOptions)
  deriving DecidableEq, Repr

/-- The options before a command. -/
def generalOptions : List OptionSpec :=
  [{ key := "version", names := ["--version", "-v"] }, { key := "help", names := ["--help"] }]

/-- The options of the command that lists rules. -/
def rulesOptions : List OptionSpec :=
  [{ key := "config", names := ["--config", "-c"], takesValue := true },
    { key := "help", names := ["--help"] }]

/-- The options of the command that lints. -/
def lintOptions : List OptionSpec :=
  [{ key := "config", names := ["--config", "-c"], takesValue := true },
    { key := "rule", names := ["--rule", "-r"], takesValue := true },
    { key := "format", names := ["--format"], takesValue := true },
    { key := "debug", names := ["--debug", "-d"] },
    { key := "help", names := ["--help"] }]

/-- Whether an option is given. -/
def isGiven (key : String) (given : List (String × String)) : Bool :=
  given.any fun (k, _) => k == key

/-- The command that lists rules. -/
def readRulesCommand (arguments : List String) : Except UsageFault Command := do
  let (given, rest) ← readArguments rulesOptions true arguments
  if isGiven "help" given then return .help
  else if rest.isEmpty then return .rules (valueOf? "config" given)
  else .error (.extraArguments rest)

/-- The command that lints. -/
def readLintCommand (arguments : List String) : Except UsageFault Command := do
  let (given, files) ← readArguments lintOptions true arguments
  if isGiven "help" given then return .help
  else if files.isEmpty then .error .missingFiles
  else
    return .lint {
      files
      config := valueOf? "config" given
      rules := valuesOf "rule" given
      format := (valueOf? "format" given).getD "terminal"
      debug := isGiven "debug" given }

/-- The **command of a command line**. The first general option decides what is done, and then
nothing after it matters. -/
def Command.ofArguments (arguments : List String) : Except UsageFault Command := do
  let (given, rest) ← readArguments generalOptions false arguments
  match given, rest with
  | ("version", _) :: _, _ => return .version
  | _ :: _, _ => return .help
  | [], [] => .error .missingCommand
  | [], "lint" :: arguments => readLintCommand arguments
  | [], "rules" :: arguments => readRulesCommand arguments
  | [], name :: _ => .error (.unknownCommand name)

end TreeLint.CommandLine
