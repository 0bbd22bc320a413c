import TreeLint.Json.Display

/-!
# Faults of the Console

Why a text cannot be laid out: its markup does not add up, a tag asks for an action or a colour
that cannot be read, it has to be cut where nothing of it can be drawn, or it cannot be encoded.
-/

namespace TreeLint.Console

/-- Why the parameters of an action cannot be read. -/
inductive ActionFault where
  /-- They break a rule of writing. -/
  | malformed (read : String) (message : String)
  /-- They are well written and have no value. -/
  | valueless (message : String)
  deriving DecidableEq, Repr

/-- Why markup has no text. -/
inductive MarkupFault where
  /-- A closing tag names something that is not open. -/
  | unmatched (tag : String) (position : Nat)
  /-- A closing tag without a name stands where nothing is open. -/
  | nothingOpen (position : Nat)
  /-- The tag that is closed asks for an action with parameters that cannot be read. -/
  | action (parameters : String) (fault : ActionFault)
  deriving DecidableEq, Repr

/-- The text of the fault. -/
def MarkupFault.message : MarkupFault → String
  | .unmatched tag position =>
    s!"closing tag '{tag}' at position {position} doesn't match any open tag"
  | .nothingOpen position => s!"closing tag '[/]' at position {position} has nothing to close"
  | .action parameters (.malformed read message) =>
    s!"error parsing {Text.quoted read} in {Text.quoted parameters}; {message}"
  | .action parameters (.valueless message) =>
    s!"error parsing {Text.quoted parameters}; {message}"

/-- Why the level of a colour is no number. -/
inductive LevelFault where
  /-- There is nothing where a level should stand. -/
  | missing
  /-- The level has more digits than are read. -/
  | tooManyDigits (count : Nat)
  deriving DecidableEq, Repr

/-- The text of the fault. -/
def LevelFault.message : LevelFault → String
  | .missing => "invalid literal for int() with base 10: ''"
  | .tooManyDigits count => (DigitLimit.reading count).message

/-- Why a text cannot be cut at a cell. -/
inductive CutFault where
  /-- Nothing of the text takes a cell where it is drawn. -/
  | nothingDrawn
  /-- The text ends before the cell. -/
  | pastEnd
  deriving DecidableEq, Repr

/-- The text of the fault. -/
def CutFault.message : CutFault → String
  | .nothingDrawn => "division by zero"
  | .pastEnd => "list index out of range"

/-- Why something is not printed. -/
inductive Fault where
  | markup (fault : MarkupFault)
  | level (fault : LevelFault)
  | cut (fault : CutFault)
  /-- The text has a character that the encoding lacks. -/
  | unencodable (message : String)
  deriving DecidableEq, Repr

/-- The text of the fault. -/
def Fault.message : Fault → String
  | .markup fault => fault.message
  | .level fault => fault.message
  | .cut fault => fault.message
  | .unencodable message => message

end TreeLint.Console
