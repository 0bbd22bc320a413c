import TreeLint.File.Path
import TreeLint.Settings.Data
import TreeLint.Text.Quoted
import TreeLint.Yaml.Fault

/-!
# File Systems

A file system is a value: a tree of directories with files of bytes in it, and a current
directory from which relative paths start. There are no links, so `..` leads back the way
that the path came, provided that what it leaves is a directory.

A path can fail to name something in several ways (`FileFault`), and the first component that
cannot be followed decides which.

What a run reads (`Sources`) are the files of a file system. How the text of a file becomes data is
up to the caller as far as it is not the business of this library: the reader of YAML, and what is
read in JSON for half of a pair of code units, which is no character.
-/

namespace TreeLint

/-- A file or a directory. -/
inductive Entry where
  | file (content : List UInt8)
  | directory (entries : List (String × Entry))
  deriving Inhabited

/-- Why a path names nothing that can be read. -/
inductive FileFault where
  | notFound
  | notADirectory
  | isADirectory
  | nameTooLong
  deriving DecidableEq, Repr

namespace FileFault

/-- The text of the fault. -/
def message : FileFault → String
  | .notFound => "No such file or directory"
  | .notADirectory => "Not a directory"
  | .isADirectory => "Is a directory"
  | .nameTooLong => "File name too long"

/-- The number of the fault. -/
def code : FileFault → Nat
  | .notFound => 2
  | .notADirectory => 20
  | .isADirectory => 21
  | .nameTooLong => 36

/-- The fault with its number and the path. -/
def describe (fault : FileFault) (path : String) : String :=
  s!"[Errno {fault.code}] {fault.message}: {Text.quoted path}"

end FileFault

/-- Files and directories from the root down, and the current directory. -/
structure FileSystem where
  root : Entry
  current : List String

namespace Entry

/-- The entry of a name in a list of entries. -/
def find? (name : String) : List (String × Entry) → Option Entry
  | [] => none
  | (n, e) :: rest => if n = name then some e else find? name rest

/-- The entries with one more, in place of an earlier one of that name. -/
def put (name : String) (e : Entry) : List (String × Entry) → List (String × Entry)
  | [] => [(name, e)]
  | (n, old) :: rest => if n = name then (n, e) :: rest else (n, old) :: put name e rest

/-- The entry with another one put below it at the end of a list of names. Directories on the
way are made; a directory is not put in the place of one. -/
def insert (below : Entry) (names : List String) (e : Entry) : Entry :=
  match names with
  | [] =>
    match below, e with
    | .directory entries, .directory [] => .directory entries
    | _, e => e
  | name :: rest =>
    match below with
    | .directory entries =>
      .directory (put name (((find? name entries).getD (.directory [])).insert rest e) entries)
    | .file content => .file content

/-- The longest name of an entry, in bytes. -/
def nameLimit : Nat := 255

/-- Follow components from an entry, given its ancestors from the nearest on. -/
def descend (ancestors : List Entry) (e : Entry) : List String → Except FileFault Entry
  | [] => .ok e
  | part :: rest =>
    match e with
    | .file _ => .error .notADirectory
    | .directory entries =>
      if part = ".." then
        match ancestors with
        | [] => descend [] e rest
        | up :: ancestors => descend ancestors up rest
      else if nameLimit < part.utf8ByteSize then .error .nameTooLong
      else
        match find? part entries with
        | none => .error .notFound
        | some below => descend (e :: ancestors) below rest

end Entry

namespace FileSystem

/-- The longest path, in bytes. -/
def pathLimit : Nat := 4096

/-- What a path names. -/
def look (fs : FileSystem) (p : Path) : Except FileFault Entry :=
  if pathLimit ≤ p.text.utf8ByteSize then .error .nameTooLong
  else
    let parts := if p.isAbsolute then p.parts else fs.current ++ p.parts
    fs.root.descend [] parts

/-- Whether a path can name anything at all. -/
def isNameable (p : Path) : Bool := !p.parts.any fun part => part.contains '\x00'

/-- What a path names, and nothing when there is nothing. A name that is too long is a fault
even here. -/
@[irreducible] def find? (fs : FileSystem) (p : Path) : Except FileFault (Option Entry) :=
  if isNameable p then
    match fs.look p with
    | .ok e => .ok (some e)
    | .error .nameTooLong => .error .nameTooLong
    | .error _ => .ok none
  else .ok none

/-- Whether something is there. -/
def exists? (fs : FileSystem) (p : Path) : Except FileFault Bool :=
  (fs.find? p).map Option.isSome

/-- Whether a directory is there. -/
def isDirectory? (fs : FileSystem) (p : Path) : Except FileFault Bool :=
  (fs.find? p).map fun
    | some (.directory _) => true
    | _ => false

/-- Whether a file is there. -/
def isFile? (fs : FileSystem) (p : Path) : Except FileFault Bool :=
  (fs.find? p).map fun
    | some (.file _) => true
    | _ => false

/-- The entries of a directory; none if there is no directory. -/
def entries (fs : FileSystem) (p : Path) : List (String × Entry) :=
  match fs.find? p with
  | .ok (some (.directory entries)) => entries
  | _ => []

/-- The content of a file. -/
def read (fs : FileSystem) (p : Path) : Except FileFault (List UInt8) :=
  match fs.look p with
  | .ok (.file content) => .ok content
  | .ok (.directory _) => .error .isADirectory
  | .error fault => .error fault

end FileSystem

/-- What a run **reads**: files, and how their texts become data. -/
structure Sources extends FileSystem where
  /-- The value of a text in YAML. -/
  yaml : List UInt8 → Except Yaml.Fault Data
  /-- What is read in JSON for half of a pair of code units on its own. -/
  lone : Nat → Char

end TreeLint
