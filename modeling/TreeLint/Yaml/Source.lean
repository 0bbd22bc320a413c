import TreeLint.Text.Arrival
import TreeLint.Yaml.Fault

/-!
# The Characters of a YAML Text

A text is not looked at as a whole before it is read: its characters come in pieces, and a piece
that cannot be had, or that holds a character no YAML text can hold, is a fault only for a reader
who gets that far. `Source.ofBytes` finds the characters before the first such piece.

## What is assumed

The size of a piece and that the first two come together are matters of buffering. They decide
which of two faults of one text is found first, and nothing else.
-/

namespace TreeLint.Yaml

/-- Whether a character can stand in a text at all. -/
def isAllowed (c : Char) : Bool :=
  let n := c.toNat
  n = 0x9 || n = 0xa || (0x20 ≤ n && n ≤ 0x7e) || n = 0x85 || (0xa0 ≤ n && n ≤ 0xfffd) ||
    0x10000 ≤ n

/-- The characters of a text, and why there are no more of them, unless because the text ends. -/
structure Source where
  text : List Char
  beyond : Option Fault := none

namespace Source

/-- How many characters a piece has. -/
def pieceSize : Nat := 4096

/-- The next piece of a text. -/
def piece (a : Text.Arrival) : Except Fault (List Char × Text.Arrival) :=
  (a.take pieceSize).mapError .undecodable

/-- The characters themselves, if all of them can stand in a text. -/
def allowed (cs : List Char) : Except Fault (List Char) :=
  if cs.all isAllowed then .ok cs else .error .malformed

/-- The characters that arrive piece by piece after those in `text`, which are in reverse. -/
def ofPieces (fuel : Nat) (text : List Char) (a : Text.Arrival) : Source :=
  match fuel with
  | 0 => ⟨text.reverse, none⟩
  | fuel + 1 =>
    match (do let (cs, a) ← piece a; return (← allowed cs, a) : Except Fault _) with
    | .error fault => ⟨text.reverse, some fault⟩
    | .ok ([], _) => ⟨text.reverse, none⟩
    | .ok (cs, a) => ofPieces fuel (cs.reverse ++ text) a

/-- The first two pieces, which come together. -/
def firstPieces (a : Text.Arrival) : Except Fault (List Char × Text.Arrival) := do
  let (first, a) ← piece a
  let (second, a) ← piece a
  return (← allowed (first ++ second), a)

/-- The **characters of a text** of bytes. -/
def ofBytes (bytes : List UInt8) : Source :=
  match firstPieces { bytes } with
  | .error fault => ⟨[], some fault⟩
  | .ok (cs, a) => ofPieces (bytes.length + 1) cs.reverse a

end Source

end TreeLint.Yaml
