import TreeLint.File.Pattern
import TreeLint.File.System

/-!
# Finding Files by Pattern

Two ways to find files below a directory. `FileSystem.glob` matches a path whose components
are name patterns, where a component `**` stands for any number of directories; a hidden name
is found only by a component that itself starts with a dot. `FileSystem.filesBelow` lists
every file with a suffix, hidden or not.
-/

namespace TreeLint

mutual

/-- The relative paths of everything below an entry, each with what is there, whose names
pass a test. What a failing name holds is not looked at. -/
def Entry.contents (keep : String → Bool) : Entry → List (List String × Entry)
  | .file _ => []
  | .directory entries => contentsAll keep entries

/-- The same for a list of entries, themselves included. -/
def Entry.contentsAll (keep : String → Bool) : List (String × Entry) → List (List String × Entry)
  | [] => []
  | (name, e) :: rest =>
    (if keep name then
      ([name], e) :: (Entry.contents keep e).map fun (names, e) => (name :: names, e)
    else []) ++ contentsAll keep rest

end

/-- Whether an entry is a directory. -/
def Entry.isDirectory : Entry → Bool
  | .directory _ => true
  | .file _ => false

namespace FileSystem

/-- The component that stands for any number of directories. -/
def recursiveComponent : String := "**"

/-- A path that matches a pattern, and whether it is written with a slash at its end. -/
structure Match where
  path : Path
  hasSlash : Bool := false

/-- The text of a path that matches. -/
def Match.text (m : Match) : String := if m.hasSlash then m.path.text ++ "/" else m.path.text

/-- What one component of a pattern leads to from a path. Unless the component is the last
one, only directories are gone on with. The path itself is a place of no further directories
whatever is there, and is then written with a slash. -/
def globStep (fs : FileSystem) (component : String) (isLast : Bool) (p : Path) : List Match :=
  if component = recursiveComponent then
    let visible := (Entry.directory (fs.entries p)).contents fun name =>
      !NamePattern.isHidden name
    ⟨p, true⟩ :: visible.filterMap fun (names, e) =>
      if isLast || e.isDirectory then some ⟨{ p with parts := p.parts ++ names }, false⟩ else none
  else if NamePattern.hasMagic component then
    (fs.entries p).filterMap fun (name, e) =>
      if (isLast || e.isDirectory) &&
          (NamePattern.isHidden component || !NamePattern.isHidden name) &&
          NamePattern.accepts component name then some ⟨p.child name, false⟩
      else none
  else
    let q := p.child component
    match fs.exists? q with
    | .ok true => [⟨q, false⟩]
    | _ => []

/-- Follow the components of a pattern from a list of paths. -/
def globFrom (fs : FileSystem) : List String → List Match → List Match
  | [], found => found
  | component :: rest, found =>
    globFrom fs rest (found.flatMap fun m => fs.globStep component rest.isEmpty m.path)

/-- The paths that match a pattern, in the order of their texts. The components before the
first that has a wild card are taken as they are, and only then can there be a name among them
that no directory can have; such a directory cannot be searched. -/
def glob? (fs : FileSystem) (pattern : Path) : Option (List Path) :=
  let (fixed, rest) := pattern.parts.span fun part => !NamePattern.hasMagic part
  let start : Path := { pattern with parts := fixed }
  if rest.isEmpty then
    match fs.exists? start with
    | .ok true => some [start]
    | _ => some []
  else if isNameable start then
    let found := (fs.globFrom rest [⟨start, false⟩]).mergeSort fun m n => decide (m.text ≤ n.text)
    some (found.map Match.path)
  else none

/-- The files below a directory whose names have a suffix, component by component in order. -/
def filesBelow (fs : FileSystem) (p : Path) (suffix : String) : List Path :=
  let all := (Entry.directory (fs.entries p)).contents fun _ => true
  let paths := all.filterMap fun (names, e) =>
    match e, names.getLast? with
    | .file _, some name =>
      if name.endsWith suffix then some { p with parts := p.parts ++ names } else none
    | _, _ => none
  paths.mergeSort Path.le

/-- The first directory below a directory that cannot be searched, since its path is too long. -/
def unsearchable? (fs : FileSystem) (p : Path) : Option Path :=
  let all := (Entry.directory (fs.entries p)).contents fun _ => true
  all.findSome? fun (names, e) =>
    let below : Path := { p with parts := p.parts ++ names }
    if e.isDirectory && pathLimit ≤ below.text.utf8ByteSize then some below else none

end FileSystem

end TreeLint
