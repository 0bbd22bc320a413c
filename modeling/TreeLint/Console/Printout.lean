import TreeLint.Console.Table

/-!
# What a Console Prints

Printing goes on until something cannot be printed: a `Printout` is the text so far together
with the fault, if any, that ended it.
-/

namespace TreeLint.Console

/-- A text that was printed, and why no more of it was. -/
structure Printout (ε : Type) where
  text : List Char
  fault : Option ε := none

namespace Printout

variable {ε : Type}

/-- Nothing, for a reason. -/
def failed (fault : ε) : Printout ε := ⟨[], some fault⟩

/-- One printout after another. Nothing follows a fault. -/
def append (p q : Printout ε) : Printout ε :=
  match p.fault with
  | some _ => p
  | none => ⟨p.text ++ q.text, q.fault⟩

instance : Append (Printout ε) := ⟨append⟩

/-- Several printouts in a row. -/
def concat (ps : List (Printout ε)) : Printout ε := ps.foldr append ⟨[], none⟩

/-- Characters that are printed at once: all of them, or none if they cannot be encoded. -/
def ofChars (display : Display) (cs : List Char) : Printout Fault :=
  match display.refusal? cs with
  | none => ⟨cs, none⟩
  | some message => failed (.unencodable message)

/-- An empty line. -/
def blankLine (display : Display) : Printout Fault := ofChars display ['\n']

/-- Lines, cut off at the edge of the display. They are printed together or not at all. -/
def ofLines (display : Display) (lines : Except Fault (List Line)) : Printout Fault :=
  let limited : Except Fault (List Line) := do
    (← lines).mapM fun line => (line.limit display.width).mapError .cut
  match limited with
  | .error fault => failed fault
  | .ok lines => ofChars display (lines.flatMap fun line => line.flatten ++ ['\n'])

/-- A text with markup, in lines that fit the display. -/
def ofMarkup (display : Display) (markup : String) : Printout Fault :=
  ofLines display do
    (← Console.ofMarkup display.pictures markup.toList).lines .ragged .fold display.width

/-- The characters that are printed for a text as it stands, line by line: not broken, with
pictures in place of their names. -/
def plainChars (pictures : Pictures) (text : String) : List Char :=
  let text : StyledText := { chars := printable (pictures.replace text.toList) }
  text.splitLines.flatMap fun line => line.expandTabs.chars ++ ['\n']

/-- A text as it stands. -/
def ofText (display : Display) (text : String) : Printout Fault :=
  ofChars display (plainChars display.pictures text)

/-- The printout with another type of fault. -/
def mapFault {δ : Type} (f : ε → δ) (p : Printout ε) : Printout δ := ⟨p.text, p.fault.map f⟩

end Printout

end TreeLint.Console
