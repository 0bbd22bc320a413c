import TreeLint.CommandLine.Run
import TreeLint.Yaml.Read

/-!
# The Program

Reads what the command line names from the disk, runs the command on it, and writes what the
command printed.

The disk is read in two rounds. The first looks at names only: which directories and files there are
where the arguments lead. With these the files that the command opens are known, and the second
round reads those. A file that is there and cannot be read ends the program with the fault that the
system gives; no report is made of something that was not read.
-/

namespace TreeLint.Program

/-- The place of components on the disk. -/
def placeOf (parts : List String) : String := "/" ++ "/".intercalate parts

/-- The components from the root on of a path that is seen from the current directory, without
those that lead back. -/
def placeParts (current : List String) (path : Path) : List String :=
  Terminal.resolveParts [] (if path.isAbsolute then path.parts else current ++ path.parts)

/-! ### Names -/

/-- The tree of files with the names of all that stands at some places and below them. The files
are empty. -/
def addNames (root : Entry) (places : List (List String)) : IO Entry := do
  let mut root := root
  let mut pending := places
  repeat
    let parts :: rest := pending | break
    let path := (← IO.currentDir) / placeOf parts
    if ← path.isDir then
      root := root.insert parts (.directory [])
      let children ← path.readDir
      pending := children.toList.map (fun child => parts ++ [child.fileName]) ++ rest
    else
      if ← path.pathExists then root := root.insert parts (.file [])
      pending := rest
  return root

/-- The tree of files with the names at a path. The directories on the way are added, and what is
in them is not. -/
def addPath (current : List String) (root : Entry) (path : Path) : IO Entry := do
  let parts := if path.isAbsolute then path.parts else current ++ path.parts
  let mut root := root
  for n in List.range parts.length do
    let above := Terminal.resolveParts [] (parts.take n)
    if ← ((← IO.currentDir) / placeOf above).isDir then root := root.insert above (.directory [])
  addNames root [Terminal.resolveParts [] parts]

/-- The path of an argument up to the first component that is a pattern. -/
def literalPath (argument : String) : Path :=
  let path := Path.ofText argument
  { path with parts := path.parts.takeWhile fun part => !NamePattern.hasMagic part }

/-- The paths at which settings are looked for. -/
def configPaths (config : Option String) : List Path :=
  match config with
  | some text => [.ofText text]
  | none => configNames.map .ofText

/-- The paths that a command starts from. -/
def startsOf : CommandLine.Command → List Path
  | .help | .version => []
  | .rules config => configPaths config
  | .lint options => configPaths options.config ++ options.files.map literalPath

/-! ### Files -/

/-- The files that a command opens, as far as names tell. -/
def opened (files : FileSystem) : CommandLine.Command → List Path
  | .help | .version => []
  | .rules config => (configPaths config).filter isFile
  | .lint options =>
    let trees := (files.resolve ⟨"/", files.current⟩ options.files).toOption.getD []
    (configPaths options.config ++ trees).filter isFile
where
  isFile (path : Path) : Bool := (files.isFile? path).toOption.getD false

/-- The files that a command needs. -/
def filesFor (command : CommandLine.Command) : IO FileSystem := do
  let current := (Path.ofText (← IO.currentDir).toString).parts
  let start := (Entry.directory []).insert current (.directory [])
  let mut root ← (startsOf command).foldlM (addPath current) start
  for path in opened ⟨root, current⟩ command do
    let parts := placeParts current path
    root := root.insert parts (.file (← IO.FS.readBinFile (placeOf parts)).toList)
  return ⟨root, current⟩

/-! ### The display -/

/-- What stands for half of a pair of code units: a character for private use. -/
def half (unit : Nat) : Char := Char.ofNat (0x10f800 + (unit - 0xd800))

/-- Why a text cannot be encoded: halves of pairs have no code. -/
def refusal? (cs : List Char) : Option String :=
  (cs.findIdx? fun c => half 0xd800 ≤ c).map fun i =>
    s!"Half of a pair of code units cannot be encoded: position {i}"

/-- The pictures whose names are numerals, which are those that a line between colons can name. -/
def numeralPictures : Console.Pictures :=
  .ofTable [("100", "💯"), ("1234", "🔢")]

/-- The width of a display that says nothing about it. -/
def usualWidth : Nat := 80

/-- The width of the display. -/
def displayWidth : IO Nat := do
  return ((← IO.getEnv "COLUMNS").bind String.toNat?).getD usualWidth

/-- What a command runs in. Values are written to any depth. -/
def environmentFor (command : CommandLine.Command) (debug : Bool) :
    IO CommandLine.Environment := do
  let files ← filesFor command
  return {
    files := { files with yaml := Yaml.readBytes, lone := half }
    base := ⟨"/", files.current⟩
    display := { width := ← displayWidth, pictures := numeralPictures, refusal? }
    reaches := fun _ => true
    debug }

/-- Whether a command asks for everything that is logged. -/
def asksForLog : CommandLine.Command → Bool
  | .lint options => options.debug
  | _ => false

end TreeLint.Program

open TreeLint in
/-- Run the command line. -/
def main (arguments : List String) : IO UInt32 := do
  let debug := CommandLine.asksForDebugging ((← IO.getEnv "CYLINT_DEBUG").getD "")
  let command := (CommandLine.Command.ofArguments arguments).toOption.getD .help
  let outcome := CommandLine.run (← Program.environmentFor command debug) arguments
  for entry in outcome.log do
    if debug || Program.asksForLog command || entry.level = .warning then
      IO.eprintln entry.text
  IO.print (String.ofList outcome.printed)
  if let some fault := outcome.usage then IO.eprintln fault.message
  if let some fault := outcome.escape then IO.eprintln fault.message
  return UInt32.ofNat outcome.status
