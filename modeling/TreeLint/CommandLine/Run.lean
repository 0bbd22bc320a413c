import TreeLint.CommandLine.Command
import TreeLint.Lint.Files
import TreeLint.Report.Format

/-!
# Running Commands

`run` carries out a command line in an environment: what is read, the directory that arguments are
resolved against, the display, how deep the machine reaches into a value that it writes, and whether
debugging is asked for. The outcome is an **exit status** with what was printed: zero when all is
well, one when there is something to mend, two when the command line cannot be understood.
-/

namespace TreeLint.CommandLine

open Console (Printout Column Table Display)

/-- What a command runs in. -/
structure Environment where
  files : Sources
  /-- The directory that arguments are resolved against and that paths are shown relative to. -/
  base : Path
  display : Display
  /-- Whether a value can be written to its depth. -/
  reaches : Json → Bool
  debug : Bool := false

/-- Whether the value of the variable that asks for debugging does so. -/
def asksForDebugging (value : String) : Bool := ["1", "true", "yes"].contains value.toLower

/-- A fault that the command does not handle. -/
inductive Escape where
  | settings (fault : SettingsFault)
  | terminal (fault : TerminalFault)
  deriving DecidableEq, Repr

/-- The text of the fault. -/
def Escape.message : Escape → String
  | .settings fault => fault.message
  | .terminal fault => fault.message

/-- How a command ended: its exit status, what it printed, what it logged, and the fault that it
did not handle, if any. -/
structure Outcome where
  status : Nat
  printed : List Char := []
  log : List LogEntry := []
  escape : Option Escape := none
  usage : Option UsageFault := none

/-- The outcome of printing something, with the status that it has if all of it is printed. -/
def Outcome.ofPrintout (status : Nat) (log : List LogEntry) (p : Printout TerminalFault) :
    Outcome :=
  match p.fault with
  | none => { status, printed := p.text, log }
  | some fault => { status := 1, printed := p.text, log, escape := some (.terminal fault) }

/-- The line on a fault, as markup. -/
def errorMarkup (message : String) : String := "[red]Error:[/red] " ++ message

/-- The line on a fault. -/
def errorLine (display : Display) (message : String) : Printout TerminalFault :=
  (Printout.ofMarkup display (errorMarkup message)).mapFault .console

/-! ### The commands -/

/-- The version of the program. -/
def programVersion : String := "0.1.0"

/-- The line that announces the origin of a fault. -/
def originLines (display : Display) : Printout TerminalFault :=
  (Printout.ofMarkup display "\n[dim]Traceback:[/dim]").mapFault .console

/-- The outcome of a run that has no result. -/
def failedRun (env : Environment) (debug : Bool) (log : List LogEntry) (fault : RunFault) :
    Outcome :=
  let line := errorLine env.display fault.message
  let printed :=
    if debug && !fault.isUsersFault then line ++ originLines env.display else line
  .ofPrintout 1 log printed

/-- Lint files. The format is looked at before anything else. -/
def runLint (env : Environment) (options : LintOptions) : Outcome :=
  match Format.ofName options.format with
  | .error fault => .ofPrintout 1 [] (errorLine env.display fault.message)
  | .ok format =>
    let (log, result) := env.files.lint .builtin (options.config.map .ofText) env.base
      options.rules options.files
    match result with
    | .error fault => failedRun env (options.debug || env.debug) log fault
    | .ok result =>
      .ofPrintout (if result.hasErrors then 1 else 0) log
        (result.print env.reaches env.display env.files.current format)

/-- The columns of the list of rules. -/
def rulesColumns : List Column :=
  [⟨"ID", .fixed 8, .left⟩, ⟨"Name", .fixed 28, .left⟩, ⟨"Level", .fixed 6, .left⟩,
    ⟨"Description", .free 40, .left⟩]

/-- The list of rules with their levels. What a rule is for is read as markup, and settings have
a say in it. -/
def rulesTable (registry : Registry) (settings : Settings) : Table :=
  { columns := rulesColumns
    rows := registry.sorted.map fun spec =>
      [.markup spec.id, .markup spec.name,
        .markup (settings.levelFor spec.id spec.name).word,
        .markup (spec.build settings).description] }

/-- List the rules. -/
def runRules (env : Environment) (config : Option String) : Outcome :=
  match env.files.loadSettings (config.map .ofText) with
  | .error (.config fault) => .ofPrintout 1 [] (errorLine env.display fault.message)
  | .error fault => { status := 1, escape := some (.settings fault) }
  | .ok settings =>
    let lines := (rulesTable .builtin settings).lines env.display
    .ofPrintout 0 [] ((Printout.ofLines env.display lines).mapFault .console)

/-- The outcome of a command. -/
def Command.run (env : Environment) : Command → Outcome
  | .help => { status := 0 }
  | .version =>
    .ofPrintout 0 []
      ((Printout.ofMarkup env.display ("cylint " ++ programVersion)).mapFault .console)
  | .rules config => runRules env config
  | .lint options => runLint env options

/-- The **outcome of a command line**. -/
def run (env : Environment) (arguments : List String) : Outcome :=
  match Command.ofArguments arguments with
  | .error fault => { status := 2, usage := some fault }
  | .ok command => command.run env

end CommandLine

end TreeLint
