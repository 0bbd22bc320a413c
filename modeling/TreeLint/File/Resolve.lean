import TreeLint.File.Glob

/-!
# Resolving Arguments

An argument of a run is a file, a directory, or a pattern. `FileSystem.resolve` gives the
tree files that a list of arguments names, each once, in the order in which they are first
named; a run without any file is a fault.
-/

namespace TreeLint

/-- Why arguments name no files to work on. -/
inductive ResolveFault where
  /-- Nothing matched these arguments. -/
  | noFiles (arguments : List String)
  /-- An argument that cannot be looked up at all. -/
  | unusable (fault : FileFault) (path : String)
  /-- A pattern below a directory whose name no directory can have. -/
  | unnameable
  deriving DecidableEq, Repr

/-- The text of the fault. -/
def ResolveFault.message : ResolveFault → String
  | .noFiles arguments =>
    "No tree files matched: " ++ ", ".intercalate arguments ++ "\n" ++
      "Pass ESTree JSON files, directories, or patterns like 'trees/**/*.json'"
  | .unusable fault path => fault.describe path
  | .unnameable => "embedded null byte"

/-- The suffix of tree files in a directory. -/
def treeSuffix : String := ".json"

namespace FileSystem

/-- The paths that one argument stands for, seen from a base path. A directory stands for the
tree files below it, also when its name looks like a pattern; it has to be searched to its end. -/
def expand (fs : FileSystem) (base : Path) (argument : String) : Except ResolveFault (List Path) :=
  let path := base.join (Path.ofText argument)
  match fs.isDirectory? path with
  | .error fault => .error (.unusable fault path.text)
  | .ok true =>
    match fs.unsearchable? path with
    | some below => .error (.unusable .nameTooLong below.text)
    | none => .ok (fs.filesBelow path treeSuffix)
  | .ok false =>
    if NamePattern.hasMagic argument then
      match fs.glob? path with
      | some paths => .ok paths
      | none => .error .unnameable
    else .ok [path]

/-- The files among paths that were not found before, after those that were. -/
def addFiles (fs : FileSystem) (found : List Path) : List Path → Except ResolveFault (List Path)
  | [] => .ok found
  | path :: rest =>
    if found.contains path then fs.addFiles found rest
    else
      match fs.isFile? path with
      | .error fault => .error (.unusable fault path.text)
      | .ok true => fs.addFiles (found ++ [path]) rest
      | .ok false => fs.addFiles found rest

/-- The files that arguments name, after those that were found before. -/
def resolveFrom (fs : FileSystem) (base : Path) (found : List Path) :
    List String → Except ResolveFault (List Path)
  | [] => .ok found
  | argument :: rest =>
    match fs.expand base argument with
    | .error fault => .error fault
    | .ok paths =>
      match fs.addFiles found paths with
      | .error fault => .error fault
      | .ok found => fs.resolveFrom base found rest

/-- The **files that arguments name**, seen from a base path. -/
def resolve (fs : FileSystem) (base : Path) (arguments : List String) :
    Except ResolveFault (List Path) :=
  match fs.resolveFrom base [] arguments with
  | .error fault => .error fault
  | .ok [] => .error (.noFiles arguments)
  | .ok found => .ok found

end FileSystem

end TreeLint
