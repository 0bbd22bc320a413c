/-!
# Paths

A path is kept in a normal form: repeated slashes, `.` components and a trailing slash are
gone, while `..` stays, because what it means depends on the files. Two texts with one normal
form are one path.
-/

namespace TreeLint

/-- A path in normal form. The root is empty for a relative path; a path that starts with
exactly two slashes has a root of its own. -/
structure Path where
  root : String
  parts : List String
  deriving DecidableEq, Repr, Inhabited

namespace Path

/-- The root of a path text. -/
def rootOf (s : String) : String :=
  if s.startsWith "///" then "/"
  else if s.startsWith "//" then "//"
  else if s.startsWith "/" then "/"
  else ""

/-- The path of a text. -/
def ofText (s : String) : Path :=
  ⟨rootOf s, (s.splitOn "/").filter fun part => part != "" && part != "."⟩

/-- The text of a path. -/
def text (p : Path) : String :=
  if p.root.isEmpty && p.parts.isEmpty then "." else p.root ++ "/".intercalate p.parts

/-- Whether the path starts at a root. -/
def isAbsolute (p : Path) : Bool := !p.root.isEmpty

/-- The path of an entry below a path. -/
def child (p : Path) (name : String) : Path := { p with parts := p.parts ++ [name] }

/-- The second path as seen from the first. -/
def join (base p : Path) : Path :=
  if p.isAbsolute then p else { base with parts := base.parts ++ p.parts }

/-- All components, with the root for the first of an absolute path. -/
def components (p : Path) : List String := if p.isAbsolute then p.root :: p.parts else p.parts

/-- The components of `p` after those of `base`, if it starts with them. -/
def dropParts? : List String → List String → Option (List String)
  | [], parts => some parts
  | _ :: _, [] => none
  | b :: base, p :: parts => if b = p then dropParts? base parts else none

/-- The path relative to a base that it starts with. -/
def relativeTo? (p base : Path) : Option Path :=
  if p.root = base.root then (dropParts? base.parts p.parts).map fun parts => ⟨"", parts⟩
  else none

/-- Whether a list of components comes before another or is the same. -/
def componentsLe : List String → List String → Bool
  | [], _ => true
  | _ :: _, [] => false
  | a :: as, b :: bs => if a = b then componentsLe as bs else decide (a < b)

/-- The order of paths: component by component. -/
def le (p q : Path) : Bool := componentsLe p.components q.components

end Path

end TreeLint
