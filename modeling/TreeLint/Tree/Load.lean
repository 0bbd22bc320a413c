import TreeLint.File.System
import TreeLint.Json.Reader
import TreeLint.Text.Utf8
import TreeLint.Tree.Build

/-!
# Loading Trees from Files

A tree file holds a JSON document as UTF-8 text. Its line endings are read as line feeds, so
that faults are counted in the lines that an editor shows.
-/

namespace TreeLint

/-- Why a file has no tree. -/
inductive LoadFault where
  | unreadable (path : String) (fault : FileFault)
  /-- The path has a character that no file name has. -/
  | unnameable
  | undecodable (fault : Text.Undecodable)
  | invalidJson (path : String) (cause : Json.ReadCause) (line : Nat)
  | tooDeep (path : String)
  | tooManyDigits (found : Nat)
  | build (fault : BuildFault)
  deriving DecidableEq, Repr

/-- The text of the fault. -/
def LoadFault.message : LoadFault → String
  | .unreadable path fault => s!"Cannot read tree file {path}: {fault.message}"
  | .unnameable => "embedded null byte"
  | .undecodable fault => fault.message
  | .invalidJson path cause line => s!"Invalid JSON in {path}: {cause.message} (line {line})"
  | .tooDeep path => s!"Tree in {path} is nested too deeply to decode"
  | .tooManyDigits found => (DigitLimit.reading found).message
  | .build fault => fault.message

/-- How deep values may be nested in a tree file. -/
def depthLimit : Nat := 1000

/-- The document of a text, where `lone` stands for half of a pair of code units on its own. -/
def readDocument (lone : Nat → Char) (path : String) (text : List Char) :
    Except LoadFault Document :=
  match Json.read lone depthLimit text with
  | .ok v => .ok v.toDocument
  | .error (.invalid cause rest) => .error (.invalidJson path cause (Json.lineOf text rest))
  | .error (.tooManyDigits found) => .error (.tooManyDigits found)
  | .error .tooDeep => .error (.tooDeep path)

/-- The tree of the content of a file. -/
def Node.ofBytes (lone : Nat → Char) (path : String) (content : List UInt8) :
    Except LoadFault Node := do
  let text ← (Text.decode content).mapError .undecodable
  let document ← readDocument lone path (Text.normalizeNewlines text)
  (Node.ofDocument document).mapError .build

/-- The **tree of a file**. -/
def Sources.loadTree (sources : Sources) (path : Path) : Except LoadFault Node :=
  if FileSystem.isNameable path then
    match sources.read path with
    | .error fault => .error (.unreadable path.text fault)
    | .ok content => Node.ofBytes sources.lone path.text content
  else .error .unnameable

end TreeLint
