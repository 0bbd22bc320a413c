import TreeLint.Text.Character
import TreeLint.Text.Lower

/-!
# Displays

What is printed on: a display has a width, a table of **pictures** that names between colons stand
for, and an encoding, which may lack some characters.

Which names have a picture, and which characters can be encoded, is not said here. Two things are
assumed of a picture (`isPicture`): it is not longer than its name with the colons, and it has no
character that is changed after it: no colon, no tab, and none that moves the cursor.
-/

namespace TreeLint.Console

/-! ### Characters that are not printed -/

/-- Whether a character moves the cursor and is dropped: the bell, the backspace, the vertical
tab, the form feed and the carriage return. -/
def isDropped (c : Char) : Bool :=
  c = '\x07' || c = '\x08' || c = '\x0b' || c = '\x0c' || c = '\r'

/-- The text as it is printed when it carries no markup. -/
def printable (cs : List Char) : List Char := cs.filter fun c => !isDropped c

/-! ### Pictures -/

/-- Whether a text can be the picture with a name. -/
def isPicture (name picture : List Char) : Bool :=
  decide (picture.length ≤ name.length + 2) &&
    picture.all fun c => c != ':' && c != '\t' && !isDropped c

/-- The **pictures** that names between colons stand for. -/
structure Pictures where
  find? : List Char → Option (List Char)
  isPicture_of_find? {name picture : List Char} : find? name = some picture → isPicture name picture

namespace Pictures

/-- The forms that a picture can be asked to take, by the end of its name. -/
def forms : List (List Char × Char) :=
  [("-emoji".toList, '\ufe0f'), ("-text".toList, '\ufe0e')]

/-- What a table has for a name, with the case of letters set aside. -/
def lookUp (table : List (String × String)) (name : List Char) : Option (List Char) :=
  (table.lookup (String.ofList (Text.lower name))).map String.toList

/-- The pictures of a table by their names in lower case, in the form that the name asks for. -/
def ofTable (table : List (String × String)) : Pictures where
  find? name :=
    let picture? :=
      match forms.find? fun form => form.1.isSuffixOf name with
      | some (ending, form) =>
        (lookUp table (name.take (name.length - ending.length))).map (· ++ [form])
      | none => lookUp table name
    picture?.filter (isPicture name)
  isPicture_of_find? h := (Option.filter_eq_some_iff.mp h).2

/-- The text with pictures in place of their names, after the characters in `acc`, which are in
reverse. `name` holds the characters since the last colon, in reverse, if they can be a name. -/
def replaceFrom (pictures : Pictures) (acc : List Char) (name : Option (List Char)) :
    List Char → List Char
  | [] =>
    match name with
    | some name => (name ++ ':' :: acc).reverse
    | none => acc.reverse
  | c :: rest =>
    match name with
    | none =>
      if c = ':' then pictures.replaceFrom acc (some []) rest
      else pictures.replaceFrom (c :: acc) none rest
    | some name =>
      if c = ':' then
        match pictures.find? name.reverse with
        | some picture => pictures.replaceFrom (picture.reverse ++ acc) none rest
        | none => pictures.replaceFrom (':' :: (name ++ ':' :: acc)) none rest
      else if Text.isBlank c then pictures.replaceFrom (c :: (name ++ ':' :: acc)) none rest
      else pictures.replaceFrom acc (some (c :: name)) rest

/-- The text with pictures **in place of their names**. -/
def replace (pictures : Pictures) (cs : List Char) : List Char := pictures.replaceFrom [] none cs

end Pictures

/-! ### Displays -/

/-- What is **printed on**. -/
structure Display where
  width : Nat
  pictures : Pictures
  /-- Why a text cannot be encoded, if it cannot. -/
  refusal? : List Char → Option String

end TreeLint.Console
