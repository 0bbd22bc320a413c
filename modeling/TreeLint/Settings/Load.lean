import TreeLint.File.System
import TreeLint.Settings.Validate

/-!
# Loading Settings from Files

Settings are written in YAML, in a file that is named or else looked for in the current
directory under a few names. Without a file the defaults hold, and so they do with a file whose
value is blank. What value a text has is left to the reader of YAML (`Sources.yaml`).
-/

namespace TreeLint

/-- Why no settings could be loaded. -/
inductive SettingsFault where
  | config (fault : ConfigFault)
  | unreadable (path : String) (fault : FileFault)
  | undecodable (fault : Text.Undecodable)
  /-- A scalar of the file stands for nothing. -/
  | scalar (fault : Yaml.ScalarFault)
  /-- The parts of the file stand one inside the other too often. -/
  | tooDeep
  deriving DecidableEq, Repr

/-- The text of the fault. -/
def SettingsFault.message : SettingsFault → String
  | .config fault => fault.message
  | .unreadable path fault => fault.describe path
  | .undecodable fault => fault.message
  | .scalar fault => fault.message
  | .tooDeep => "maximum recursion depth exceeded"

/-- The names under which a file is looked for, the first one first. -/
def configNames : List String := [".cylint.yaml", ".cylint.yml", "cylint.yaml", "cylint.yml"]

/-- The settings that the value of a file gives. A blank value gives the defaults. -/
def Settings.ofFileData (data : Data) : Except ConfigFault Settings :=
  if data.isBlank then .ok {} else Settings.ofData data

/-- The settings of a file, given what reading its text came to. -/
def Settings.ofReading (path : String) (reading : Except Yaml.Fault Data) :
    Except SettingsFault Settings :=
  match reading with
  | .error .malformed => .error (.config (.invalidYaml path))
  | .error (.scalar fault) => .error (.scalar fault)
  | .error .tooDeep => .error .tooDeep
  | .error (.undecodable fault) => .error (.undecodable fault)
  | .ok data => (Settings.ofFileData data).mapError .config

namespace FileSystem

/-- The file that holds the settings when none is named. -/
def findConfig? (fs : FileSystem) : Option Path :=
  (configNames.map fun name => (Path.mk "/" fs.current).child name).find? fun path =>
    (fs.exists? path).toOption.getD false

end FileSystem

namespace Sources

/-- The settings of a file that is named. -/
def loadSettingsFrom (sources : Sources) (path : Path) : Except SettingsFault Settings :=
  match sources.exists? path with
  | .error fault => .error (.unreadable path.text fault)
  | .ok false => .error (.config (.notFound path.text))
  | .ok true =>
    match sources.read path with
    | .error fault => .error (.unreadable path.text fault)
    | .ok content => Settings.ofReading path.text (sources.yaml content)

/-- The **settings of a run**: of the file that is named, of the one that is found, or the
defaults. -/
def loadSettings (sources : Sources) (named : Option Path) : Except SettingsFault Settings :=
  match named.or sources.findConfig? with
  | some path => sources.loadSettingsFrom path
  | none => .ok {}

end Sources

end TreeLint
