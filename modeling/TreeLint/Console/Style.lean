import TreeLint.Console.Fault
import TreeLint.Text.Character
import TreeLint.Text.Lower

/-!
# Names of Styles

A style is named by words in any order: attributes, some of them with a short form, a colour, a
background and a link. Two names of one style have one **normal form**, which lists the
attributes in a fixed order and then the colours. Any other name is its own normal form, up to
case and the blanks around it.

A colour can be given by three levels, and a level that is left out is a fault.

## What is assumed

The words for attributes and colours are a fixed vocabulary. Nothing is drawn in any of them, so a
colour matters only as far as a name with it can be read, and as two names of it are the same.
-/

namespace TreeLint.Console

/-- The attributes, in the order in which a normal form lists them. -/
def attributeNames : List String :=
  ["bold", "dim", "italic", "underline", "blink", "blink2", "reverse", "conceal", "strike",
    "underline2", "frame", "encircle", "overline"]

/-- The short forms of attributes. -/
def attributeShortForms : List (String × String) :=
  [("d", "dim"), ("b", "bold"), ("i", "italic"), ("u", "underline"), ("r", "reverse"),
    ("c", "conceal"), ("s", "strike"), ("uu", "underline2"), ("o", "overline")]

/-- The attribute that a word names. -/
def attribute? (word : String) : Option String :=
  if attributeNames.contains word then some word else attributeShortForms.lookup word

/-- The colours that have a name. -/
def colorNames : List String := [
    "black", "red", "green", "yellow", "blue", "magenta", "cyan", "white", "bright_black",
    "bright_red", "bright_green", "bright_yellow", "bright_blue", "bright_magenta",
    "bright_cyan", "bright_white", "grey0", "gray0", "navy_blue", "dark_blue", "blue3", "blue1",
    "dark_green", "deep_sky_blue4", "dodger_blue3", "dodger_blue2", "green4", "spring_green4",
    "turquoise4", "deep_sky_blue3", "dodger_blue1", "green3", "spring_green3", "dark_cyan",
    "light_sea_green", "deep_sky_blue2", "deep_sky_blue1", "spring_green2", "cyan3",
    "dark_turquoise", "turquoise2", "green1", "spring_green1", "medium_spring_green", "cyan2",
    "cyan1", "dark_red", "deep_pink4", "purple4", "purple3", "blue_violet", "orange4", "grey37",
    "gray37", "medium_purple4", "slate_blue3", "royal_blue1", "chartreuse4", "dark_sea_green4",
    "pale_turquoise4", "steel_blue", "steel_blue3", "cornflower_blue", "chartreuse3",
    "cadet_blue", "sky_blue3", "steel_blue1", "pale_green3", "sea_green3", "aquamarine3",
    "medium_turquoise", "chartreuse2", "sea_green2", "sea_green1", "aquamarine1",
    "dark_slate_gray2", "dark_magenta", "dark_violet", "purple", "light_pink4", "plum4",
    "medium_purple3", "slate_blue1", "yellow4", "wheat4", "grey53", "gray53",
    "light_slate_grey", "light_slate_gray", "medium_purple", "light_slate_blue",
    "dark_olive_green3", "dark_sea_green", "light_sky_blue3", "sky_blue2", "dark_sea_green3",
    "dark_slate_gray3", "sky_blue1", "chartreuse1", "light_green", "pale_green1",
    "dark_slate_gray1", "red3", "medium_violet_red", "magenta3", "dark_orange3", "indian_red",
    "hot_pink3", "medium_orchid3", "medium_orchid", "medium_purple2", "dark_goldenrod",
    "light_salmon3", "rosy_brown", "grey63", "gray63", "medium_purple1", "gold3", "dark_khaki",
    "navajo_white3", "grey69", "gray69", "light_steel_blue3", "light_steel_blue", "yellow3",
    "dark_sea_green2", "light_cyan3", "light_sky_blue1", "green_yellow", "dark_olive_green2",
    "dark_sea_green1", "pale_turquoise1", "deep_pink3", "magenta2", "hot_pink2", "orchid",
    "medium_orchid1", "orange3", "light_pink3", "pink3", "plum3", "violet", "light_goldenrod3",
    "tan", "misty_rose3", "thistle3", "plum2", "khaki3", "light_goldenrod2", "light_yellow3",
    "grey84", "gray84", "light_steel_blue1", "yellow2", "dark_olive_green1", "honeydew2",
    "light_cyan1", "red1", "deep_pink2", "deep_pink1", "magenta1", "orange_red1", "indian_red1",
    "hot_pink", "dark_orange", "salmon1", "light_coral", "pale_violet_red1", "orchid2",
    "orchid1", "orange1", "sandy_brown", "light_salmon1", "light_pink1", "pink1", "plum1",
    "gold1", "navajo_white1", "misty_rose1", "thistle1", "yellow1", "light_goldenrod1",
    "khaki1", "wheat1", "cornsilk1", "grey100", "gray100", "grey3", "gray3", "grey7", "gray7",
    "grey11", "gray11", "grey15", "gray15", "grey19", "gray19", "grey23", "gray23", "grey27",
    "gray27", "grey30", "gray30", "grey35", "gray35", "grey39", "gray39", "grey42", "gray42",
    "grey46", "gray46", "grey50", "gray50", "grey54", "gray54", "grey58", "gray58", "grey62",
    "gray62", "grey66", "gray66", "grey70", "gray70", "grey74", "gray74", "grey78", "gray78",
    "grey82", "gray82", "grey85", "gray85", "grey89", "gray89", "grey93", "gray93"]

/-- Whether a character is a digit of a hexadecimal number in lower case. -/
def isLowerHex (c : Char) : Bool := c.isDigit || ('a' ≤ c && c ≤ 'f')

/-- The value of digits. -/
def digitsValue (digits : List Nat) : Nat := digits.foldl (fun n d => 10 * n + d) 0

/-- The number that digits of any script write. -/
def colorLevel (digits : List Nat) : Except LevelFault Nat :=
  if digits.isEmpty then .error .missing
  else if digitLimit < digits.length then .error (.tooManyDigits digits.length)
  else .ok (digitsValue digits)

/-- What stands between the commas of a list of digits; nothing if anything else is in it. -/
def digitLists? (cs : List Char) : Option (List (List Nat)) :=
  (Text.splitAll (· == ',') cs).mapM fun level => level.mapM Text.decimalDigit?

/-- What stands in parentheses after a word. -/
def argument? (word : String) (cs : List Char) : Option (List Char) :=
  let head := word.toList ++ ['(']
  if cs.take head.length = head && cs.getLast? = some ')' then
    some ((cs.drop head.length).dropLast)
  else none

/-- Whether three levels are levels of a colour. -/
def areColorLevels (levels : List (List Nat)) : Except LevelFault Bool :=
  if levels.length = 3 then do return (← levels.mapM colorLevel).all (· ≤ 255) else .ok false

/-- Whether a word in lower case is a colour: a name, six hexadecimal digits, a number in the
palette, or three levels. -/
def isColor (word : String) : Except LevelFault Bool :=
  if word = "default" || colorNames.contains word then .ok true
  else
    match word.toList with
    | '#' :: digits => .ok (digits.length == 6 && digits.all isLowerHex)
    | cs =>
      match argument? "color" cs, argument? "rgb" cs with
      | some number, _ =>
        .ok (1 ≤ number.length && number.length ≤ 3 && number.all Char.isDigit &&
          decide (digitsValue (number.map fun c => c.toNat - '0'.toNat) ≤ 255))
      | none, some levels =>
        if levels.isEmpty then .ok false
        else ((digitLists? levels).map areColorLevels).getD (.ok false)
      | none, none => .ok false

/-- What the words of a name say. -/
structure TextStyle where
  attributes : List (String × Bool) := []
  color : Option String := none
  background : Option String := none
  link : Option String := none

namespace TextStyle

/-- The style with the meaning of some words; nothing if they are no style. The last word on a
matter decides it. -/
def ofWords (s : TextStyle) : List String → Except LevelFault (Option TextStyle)
  | [] => .ok (some s)
  | word :: rest =>
    let lower := String.ofList (Text.lower word.toList)
    match lower, rest with
    | "on", [] | "not", [] | "link", [] => .ok none
    | "on", color :: rest => do
      let color := String.ofList (Text.lower color.toList)
      if ← isColor color then ({ s with background := some color } : TextStyle).ofWords rest
      else return none
    | "not", word :: rest =>
      match attribute? word with
      | some a => { s with attributes := (a, false) :: s.attributes }.ofWords rest
      | none => .ok none
    | "link", target :: rest => { s with link := some target }.ofWords rest
    | _, rest =>
      match attribute? lower with
      | some a => { s with attributes := (a, true) :: s.attributes }.ofWords rest
      | none => do
        if ← isColor lower then ({ s with color := some lower } : TextStyle).ofWords rest
        else return none

/-- The style with a name; nothing if the name is no style. -/
def ofName (name : String) : Except LevelFault (Option TextStyle) :=
  if Text.trim name.toList = "none".toList then .ok (some {})
  else ofWords {} ((Text.words name.toList).map String.ofList)

/-- The words of the style in their fixed order. -/
def words (s : TextStyle) : List String :=
  (attributeNames.filterMap fun a =>
    (s.attributes.lookup a).map fun isSet => if isSet then a else "not " ++ a) ++
  s.color.toList ++
  (s.background.map ("on " ++ ·)).toList ++
  (s.link.map ("link " ++ ·)).toList

end TextStyle

/-- The **normal form** of the name of a style. -/
def styleNormalForm (name : String) : Except LevelFault String := do
  match ← TextStyle.ofName name with
  | some style => return if style.words.isEmpty then "none" else " ".intercalate style.words
  | none => return String.ofList (Text.lower (Text.trim name.toList))

end TreeLint.Console
