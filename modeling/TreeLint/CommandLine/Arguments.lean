import TreeLint.Text.Quoted

/-!
# Arguments and Options

An argument that starts with a dash is an option, or several options of one letter each. The value
of an option is the rest of its argument, after an equals sign if its name is long, or else the
next argument, **whatever that looks like**. After two dashes alone nothing is an option.

## What is assumed

The conventions for options are those of the command line at large and hold for any list of
`OptionSpec`. A name has to be written in full, no option has a value that may be left out, and
nothing is taken from the environment in place of an option. The texts of `UsageFault` belong to
the conventions too.
-/

namespace TreeLint.CommandLine

/-- Why a command line cannot be understood. -/
inductive UsageFault where
  | unknownOption (name : String)
  | missingValue (name : String)
  | unexpectedValue (name : String)
  | missingCommand
  | unknownCommand (name : String)
  | missingFiles
  | extraArguments (arguments : List String)
  deriving DecidableEq, Repr

/-- The text of the fault. -/
def UsageFault.message : UsageFault → String
  | .unknownOption name => s!"No such option: {name}"
  | .missingValue name => s!"Option {Text.quoted name} requires an argument."
  | .unexpectedValue name => s!"Option {Text.quoted name} does not take a value."
  | .missingCommand => "Missing command."
  | .unknownCommand name => s!"No such command {Text.quoted name}."
  | .missingFiles => "Missing argument 'FILES...'."
  | .extraArguments arguments =>
    "Got unexpected extra arguments (" ++ " ".intercalate arguments ++ ")"

/-- An option: what it is called in the program, how it is written, and whether it has a
value. -/
structure OptionSpec where
  key : String
  names : List String
  takesValue : Bool := false

/-- The option that is written in a given way. -/
def option? (specs : List OptionSpec) (name : String) : Option OptionSpec :=
  specs.find? fun spec => spec.names.contains name

/-- What one argument says. -/
inductive Reading where
  | endOfOptions
  | positional
  /-- Options with their values, which are empty for those without one, and the option whose
  value is the next argument. -/
  | options (given : List (String × String)) (pending : Option OptionSpec)

/-- Options of one letter each. -/
def readLetters (specs : List OptionSpec) (given : List (String × String)) :
    List Char → Except UsageFault Reading
  | [] => .ok (.options given none)
  | c :: rest =>
    let name := String.ofList ['-', c]
    match option? specs name with
    | none => .error (.unknownOption name)
    | some spec =>
      if spec.takesValue then
        if rest.isEmpty then .ok (.options given (some spec))
        else .ok (.options (given ++ [(spec.key, String.ofList rest)]) none)
      else readLetters specs (given ++ [(spec.key, "")]) rest

/-- An option with a long name, with what follows an equals sign. -/
def readLong (specs : List OptionSpec) (name : String) (value : Option String) :
    Except UsageFault Reading :=
  match option? specs name with
  | none => .error (.unknownOption name)
  | some spec =>
    match spec.takesValue, value with
    | true, some value => .ok (.options [(spec.key, value)] none)
    | true, none => .ok (.options [] (some spec))
    | false, some _ => .error (.unexpectedValue name)
    | false, none => .ok (.options [(spec.key, "")] none)

/-- What an argument says. -/
def readArgument (specs : List OptionSpec) (argument : String) : Except UsageFault Reading :=
  match argument.toList with
  | ['-', '-'] => .ok .endOfOptions
  | '-' :: '-' :: rest =>
    let name := rest.takeWhile (· != '=')
    let value := match rest.drop name.length with
      | [] => none
      | _ :: value => some (String.ofList value)
    readLong specs (String.ofList ('-' :: '-' :: name)) value
  | '-' :: c :: rest => readLetters specs [] (c :: rest)
  | _ => .ok .positional

/-- The options and the other arguments of a command line, after those in `given` and
`positional`. Unless they are `mixed`, the first argument that is no option ends the options. -/
def readArgumentsFrom (specs : List OptionSpec) (mixed : Bool) (given : List (String × String))
    (positional : List String) :
    List String → Except UsageFault (List (String × String) × List String)
  | [] => .ok (given, positional)
  | argument :: rest =>
    match readArgument specs argument with
    | .error fault => .error fault
    | .ok .endOfOptions => .ok (given, positional ++ rest)
    | .ok .positional =>
      if mixed then readArgumentsFrom specs mixed given (positional ++ [argument]) rest
      else .ok (given, argument :: rest)
    | .ok (.options more none) => readArgumentsFrom specs mixed (given ++ more) positional rest
    | .ok (.options more (some spec)) =>
      match rest with
      | [] => .error (.missingValue (spec.names.headD spec.key))
      | value :: rest =>
        readArgumentsFrom specs mixed (given ++ more ++ [(spec.key, value)]) positional rest

/-- The options and the other arguments of a command line. -/
def readArguments (specs : List OptionSpec) (mixed : Bool) (arguments : List String) :
    Except UsageFault (List (String × String) × List String) :=
  readArgumentsFrom specs mixed [] [] arguments

/-- All values of an option. -/
def valuesOf (key : String) (given : List (String × String)) : List String :=
  (given.filter fun (k, _) => k == key).map Prod.snd

/-- The last value of an option. -/
def valueOf? (key : String) (given : List (String × String)) : Option String :=
  (valuesOf key given).getLast?

end TreeLint.CommandLine
