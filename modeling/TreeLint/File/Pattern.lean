/-!
# File Name Patterns

A pattern for one component of a path: `*` stands for any text, `?` for any character, and
`[...]` for one character of a set, or not of it after `!`. A bracket that is never closed
stands for itself, and there is no escape character.

## Sets

Inside the brackets a hyphen makes a range of the characters beside it, unless it comes first
or last. A range whose ends are in the wrong order stands for nothing, and a set of nothing
matches nothing, or everything after `!`.

## Matching

`PatternItem.matchAll` says what it is to match: a star is tried with every text. Trying takes
long where there are many stars, so `PatternItem.matchRows` finds the same answer
(`PatternItem.matchRows_eq_matchAll`) for all ends of the pattern at once, character by character
from the end of the name.
-/

namespace TreeLint

/-- One item of a name pattern. -/
inductive PatternItem where
  | star
  | any
  | literal (c : Char)
  /-- Single characters and ranges, of which one has to match, or none if negated. -/
  | oneOf (negated : Bool) (singles : List Char) (ranges : List (Char × Char))
  deriving DecidableEq, Repr

namespace PatternItem

/-- Whether an item other than `star` matches a character. -/
def accepts (item : PatternItem) (c : Char) : Bool :=
  match item with
  | .star => false
  | .any => true
  | .literal l => c == l
  | .oneOf negated singles ranges =>
    negated != (singles.contains c || ranges.any fun (lo, hi) => lo ≤ c && c ≤ hi)

/-- Which ends of a pattern match no characters, from the whole pattern to the empty one. -/
def endsAtNothing : List PatternItem → List Bool
  | [] => [true]
  | item :: items =>
    let row := endsAtNothing items
    (item == .star && row.headD false) :: row

/-- Which ends of a pattern match a character and what comes after it, from those that match what
comes after it. -/
def endsBefore (c : Char) : List PatternItem → List Bool → List Bool
  | item :: items, here :: after =>
    let row := endsBefore c items after
    let isMatch := match item with
      | .star => row.headD false || here
      | item => item.accepts c && after.headD false
    isMatch :: row
  | _, _ => [false]

/-- Whether a pattern matches a whole name, in as many steps as the pattern has items for every
character. -/
def matchRows (items : List PatternItem) (cs : List Char) : Bool :=
  (cs.foldr (fun c row => endsBefore c items row) (endsAtNothing items)).headD false

end PatternItem

namespace NamePattern

/-- The text of a set up to its closing bracket, and the text after it. A bracket that comes
first, also after `!`, belongs to the set. -/
def splitSet? (cs : List Char) : Option (List Char × List Char) :=
  let (head, rest) := match cs with
    | '!' :: ']' :: rest => (['!', ']'], rest)
    | '!' :: rest => (['!'], rest)
    | ']' :: rest => ([']'], rest)
    | rest => ([], rest)
  match rest.span (· != ']') with
  | (body, _ :: after) => some (head ++ body, after)
  | (_, []) => none

/-- The pieces of a set between the hyphens that make ranges. `skip` characters at the front
cannot be such a hyphen, and after one the next two cannot. -/
def pieces : List Char → Nat → List Char → List (List Char)
  | current, _, [] => [current.reverse]
  | current, 0, c :: rest =>
    if c = '-' then current.reverse :: pieces [] 2 rest
    else pieces (c :: current) 0 rest
  | current, skip + 1, c :: rest => pieces (c :: current) skip rest

/-- The pieces of a set, where a hyphen at the very end stands for itself. -/
def setPieces (cs : List Char) : List (List Char) :=
  let skip := match cs with
    | '!' :: _ => 2
    | _ => 1
  let all := pieces [] skip cs
  match all.reverse with
  | [] :: last :: before => ((last ++ ['-']) :: before).reverse
  | _ => all

/-- The pieces without the ranges that are in the wrong order: the ends of such a range are
dropped and the pieces beside it joined. The last range is looked at first. -/
def dropEmptyRanges : List (List Char) → List (List Char)
  | [] => []
  | piece :: rest =>
    match dropEmptyRanges rest with
    | [] => [piece]
    | next :: others =>
      match piece.getLast?, next.head? with
      | some lo, some hi =>
        if hi < lo then (piece.dropLast ++ next.tail) :: others else piece :: next :: others
      | _, _ => piece :: next :: others

/-- The single characters and the ranges of the pieces of a set. -/
def membersOf : List (List Char) → List Char × List (Char × Char)
  | [] => ([], [])
  | [piece] => (piece, [])
  | piece :: next :: rest =>
    match piece.getLast?, next with
    | some lo, hi :: more =>
      let (singles, ranges) := membersOf (more :: rest)
      (piece.dropLast ++ singles, (lo, hi) :: ranges)
    | _, _ =>
      let (singles, ranges) := membersOf (next :: rest)
      (piece ++ singles, ranges)
termination_by ps => ps.length

/-- The item of a set. -/
def setItem (cs : List Char) : PatternItem :=
  let ps := if cs.contains '-' then dropEmptyRanges (setPieces cs) else [cs]
  let (negated, ps) := match ps with
    | ('!' :: piece) :: rest => (true, piece :: rest)
    | ps => (false, ps)
  let (singles, ranges) := membersOf ps
  .oneOf negated singles ranges

/-- The items of a pattern, with at most `fuel` of them; a pattern has at most one item for
each of its characters. -/
def itemsUpTo : Nat → List Char → List PatternItem
  | 0, _ => []
  | _ + 1, [] => []
  | fuel + 1, '*' :: rest => .star :: itemsUpTo fuel rest
  | fuel + 1, '?' :: rest => .any :: itemsUpTo fuel rest
  | fuel + 1, '[' :: rest =>
    match splitSet? rest with
    | some (body, after) => setItem body :: itemsUpTo fuel after
    | none => .literal '[' :: itemsUpTo fuel rest
  | fuel + 1, c :: rest => .literal c :: itemsUpTo fuel rest

/-- The items of a pattern. -/
def items (pattern : String) : List PatternItem :=
  itemsUpTo pattern.length pattern.toList

/-- Whether a pattern matches a name. -/
def accepts (pattern name : String) : Bool :=
  PatternItem.matchRows (items pattern) name.toList

/-- Whether a text has a character that makes it a pattern. -/
def hasMagic (s : String) : Bool := s.any fun c => c == '*' || c == '?' || c == '['

/-- Whether a name is hidden. -/
def isHidden (name : String) : Bool := name.startsWith "."

end NamePattern

end TreeLint
