import TreeLint.Json.Display
import TreeLint.Text.Quoted

/-!
# What Is Wrong with a Literal

A literal can fail in three ways. Its characters may not make tokens, its tokens may break the
grammar of expressions, or it is an expression that stands for no value.
-/

namespace TreeLint.Literal

/-- How many brackets can be open. -/
def bracketLimit : Nat := 200

/-- The ways to write a number. -/
inductive NumeralKind where
  | decimal
  | hexadecimal
  | octal
  | binary
  | imaginary
  deriving DecidableEq, Repr

/-- The word for a way to write a number. -/
def NumeralKind.word : NumeralKind → String
  | .decimal => "decimal"
  | .hexadecimal => "hexadecimal"
  | .octal => "octal"
  | .binary => "binary"
  | .imaginary => "imaginary"

/-- Why characters do not make a token. -/
inductive TokenFault where
  /-- A bracket is open at the end. -/
  | neverClosed (opening : Char)
  /-- A bracket is closed that is not open. -/
  | unmatched (closing : Char)
  /-- A bracket is closed by one of another kind. The line of the opening one is told if it is
  another. -/
  | mismatched (closing opening : Char) (line : Option Nat)
  | tooManyBrackets
  /-- A character has no meaning outside of texts. -/
  | strange (c : Char)
  | badNumeral (kind : NumeralKind)
  | badDigit (digit : Char) (kind : NumeralKind)
  | leadingZeros
  /-- A text does not end. -/
  | unterminated (isTriple : Bool) (line : Nat)
  /-- A backslash outside of texts does not end its line. -/
  | afterBackslash
  | unexpectedEnd
  /-- A line goes back to a column at which none started. -/
  | unindented
  | mixedTabs
  | tooManyIndents
  deriving DecidableEq, Repr

/-- A code point in capital hexadecimal digits, at least four of them. -/
def codePoint (c : Char) : String :=
  String.ofList ((Text.hexPadded 4 c.toNat).map Char.toUpper)

/-- The text of the fault. -/
def TokenFault.message : TokenFault → String
  | .neverClosed opening => s!"'{opening}' was never closed"
  | .unmatched closing => s!"unmatched '{closing}'"
  | .mismatched closing opening line =>
    let place := match line with
      | some line => s!" on line {line}"
      | none => ""
    s!"closing parenthesis '{closing}' does not match opening parenthesis '{opening}'{place}"
  | .tooManyBrackets => "too many nested parentheses"
  | .strange c =>
    if Text.isPrintable c then s!"invalid character '{c}' (U+{codePoint c})"
    else s!"invalid non-printable character U+{codePoint c}"
  | .badNumeral kind => s!"invalid {kind.word} literal"
  | .badDigit digit kind => s!"invalid digit '{digit}' in {kind.word} literal"
  | .leadingZeros => "leading zeros in decimal integer literals are not permitted; " ++
      "use an 0o prefix for octal integers"
  | .unterminated isTriple line =>
    let kind := if isTriple then "triple-quoted string" else "string"
    s!"unterminated {kind} literal (detected at line {line})"
  | .afterBackslash => "unexpected character after line continuation character"
  | .unexpectedEnd => "unexpected EOF while parsing"
  | .unindented => "unindent does not match any outer indentation level"
  | .mixedTabs => "inconsistent use of tabs and spaces in indentation"
  | .tooManyIndents => "too many levels of indentation"

/-- Whether the fault counts only for a reader who needs the token. -/
def TokenFault.isQuiet : TokenFault → Bool
  | .neverClosed _ | .afterBackslash | .unexpectedEnd | .unindented | .mixedTabs
  | .tooManyIndents => true
  | _ => false

/-- Why an escape in a text stands for nothing. -/
inductive EscapeFault where
  /-- There are fewer digits than the letter asks for. -/
  | truncated (letter : Char) (digits : Nat)
  /-- The number is beyond those of characters. -/
  | beyond
  /-- A name is not put in braces. -/
  | unnamed
  deriving DecidableEq, Repr

/-- The text of the fault. -/
def EscapeFault.message : EscapeFault → String
  | .truncated letter digits =>
    "truncated \\" ++ String.ofList (letter :: List.replicate digits 'X') ++ " escape"
  | .beyond => "illegal Unicode character"
  | .unnamed => "malformed \\N character escape"

/-- Why a text with expressions in it is none. -/
inductive FormatFault where
  /-- A closing brace stands alone. -/
  | singleClosing
  | tooDeep
  | backslash
  | comment
  | tooManyBrackets
  | unmatched (bracket : Char)
  | mismatched (closing opening : Char)
  | unterminated
  /-- The brace that ends an expression is missing. -/
  | unclosed
  | empty
  /-- There is no expression before a character that ends one. -/
  | missingBefore (c : Char)
  | badConversion
  /-- An expression is wrong by itself. -/
  | expression (message : String)
  deriving DecidableEq, Repr

/-- The text of the fault. -/
def FormatFault.message : FormatFault → String
  | .singleClosing => "f-string: single '\x7d' is not allowed"
  | .tooDeep => "f-string: expressions nested too deeply"
  | .backslash => "f-string expression part cannot include a backslash"
  | .comment => "f-string expression part cannot include '#'"
  | .tooManyBrackets => "f-string: too many nested parenthesis"
  | .unmatched bracket => s!"f-string: unmatched '{bracket}'"
  | .mismatched closing opening =>
    s!"f-string: closing parenthesis '{closing}' does not match opening parenthesis '{opening}'"
  | .unterminated => "f-string: unterminated string"
  | .unclosed => "f-string: expecting '\x7d'"
  | .empty => "f-string: empty expression not allowed"
  | .missingBefore c => s!"f-string: expression required before '{c}'"
  | .badConversion => "f-string: invalid conversion character: expected 's', 'r', or 'a'"
  | .expression message => message

/-- Why a token stands for no constant. -/
inductive ConstantFault where
  | tooManyDigits (count : Nat)
  /-- The escape from one place of a text up to another stands for nothing. -/
  | escape (start stop : Nat) (fault : EscapeFault)
  | byteEscape (start : Nat)
  /-- Bytes are written with a character that is none. -/
  | notAByte
  /-- Bytes and a text stand side by side. -/
  | mixed
  | format (fault : FormatFault)
  deriving DecidableEq, Repr

/-- The text of the fault. -/
def ConstantFault.message : ConstantFault → String
  | .tooManyDigits count => (DigitLimit.reading count).message ++
      " - Consider hexadecimal for huge integer literals to avoid decimal conversion limits."
  | .escape start stop fault =>
    let place := if stop = start + 1 then s!"byte 0x5c in position {start}"
      else s!"bytes in position {start}-{stop - 1}"
    s!"(unicode error) 'unicodeescape' codec can't decode {place}: {fault.message}"
  | .byteEscape start => s!"(value error) invalid \\x escape at position {start}"
  | .notAByte => "bytes can only contain ASCII literal characters"
  | .mixed => "cannot mix bytes and nonbytes literals"
  | .format fault => fault.message

/-- Which rule of the grammar tokens break. Most of the time it cannot be told. -/
inductive GrammarFault where
  | invalid
  | unexpectedIndent
  | unexpectedUnindent
  | missingComma
  | missingElse
  /-- A call without parentheses of something that once was a statement. -/
  | missingParentheses (name : String)
  /-- An equals sign after a name. -/
  | equalsAfterName
  /-- An equals sign after something else. -/
  | equalsAfter (what : String)
  | equalsInArgument
  /-- A value is given to something that cannot have one. -/
  | assignment (what : String)
  /-- A value is named in passing by something other than a name. -/
  | namedBy (what : String)
  | starredInComprehension
  | bareTarget
  | doubleStarredInComprehension
  | starredInGroup
  | doubleStarredInGroup
  | starredDictValue
  | missingDictValue
  | missingDictColon
  | bareGenerator
  | positionalAfterKeyword
  | positionalAfterUnpacking
  | starredAfterUnpacking
  | missingDefault
  | plainAfterDefault
  | parenthesizedParameters
  | slashFirst
  | slashTwice
  | slashAfterStar
  | missingCommaAfterSlash
  | bareStar
  | starDefault
  | starTwice
  | doubleStarDefault
  | afterDoubleStar
  deriving DecidableEq, Repr

/-- The text of the fault. -/
def GrammarFault.message : GrammarFault → String
  | .invalid => "invalid syntax"
  | .unexpectedIndent => "unexpected indent"
  | .unexpectedUnindent => "unexpected unindent"
  | .missingComma => "invalid syntax. Perhaps you forgot a comma?"
  | .missingElse => "expected 'else' after 'if' expression"
  | .missingParentheses name =>
    s!"Missing parentheses in call to '{name}'. Did you mean {name}(...)?"
  | .equalsAfterName => "invalid syntax. Maybe you meant '==' or ':=' instead of '='?"
  | .equalsAfter what => s!"cannot assign to {what} here. Maybe you meant '==' instead of '='?"
  | .equalsInArgument => "expression cannot contain assignment, perhaps you meant \"==\"?"
  | .assignment what => s!"cannot assign to {what}"
  | .namedBy what => s!"cannot use assignment expressions with {what}"
  | .starredInComprehension => "iterable unpacking cannot be used in comprehension"
  | .bareTarget => "did you forget parentheses around the comprehension target?"
  | .doubleStarredInComprehension => "dict unpacking cannot be used in dict comprehension"
  | .starredInGroup => "cannot use starred expression here"
  | .doubleStarredInGroup => "cannot use double starred expression here"
  | .starredDictValue => "cannot use a starred expression in a dictionary value"
  | .missingDictValue => "expression expected after dictionary key and ':'"
  | .missingDictColon => "':' expected after dictionary key"
  | .bareGenerator => "Generator expression must be parenthesized"
  | .positionalAfterKeyword => "positional argument follows keyword argument"
  | .positionalAfterUnpacking => "positional argument follows keyword argument unpacking"
  | .starredAfterUnpacking => "iterable argument unpacking follows keyword argument unpacking"
  | .missingDefault => "expected default value expression"
  | .plainAfterDefault => "non-default argument follows default argument"
  | .parenthesizedParameters => "Lambda expression parameters cannot be parenthesized"
  | .slashFirst => "at least one argument must precede /"
  | .slashTwice => "/ may appear only once"
  | .slashAfterStar => "/ must be ahead of *"
  | .missingCommaAfterSlash => "expected comma between / and *"
  | .bareStar => "named arguments must follow bare *"
  | .starDefault => "var-positional argument cannot have default value"
  | .starTwice => "* argument may appear only once"
  | .doubleStarDefault => "var-keyword argument cannot have default value"
  | .afterDoubleStar => "arguments cannot follow var-keyword argument"

/-- Why an expression stands for no value. -/
inductive ValueFault where
  /-- It is not made of constants alone. -/
  | notConstant
  /-- It takes over the entries of a mapping. -/
  | unpacking
  /-- Something of a type is an item of a set or a key of a mapping that cannot be. -/
  | unhashable (type : String)
  /-- A whole number is added to an imaginary one and is too great for that. -/
  | tooLarge
  /-- A null character stands in the text. -/
  | nullCharacter
  deriving DecidableEq, Repr

/-- The text of the fault. -/
def ValueFault.message : ValueFault → String
  | .notConstant => "malformed node or string"
  | .unpacking => "malformed node or string: None"
  | .unhashable type => s!"unhashable type: '{type}'"
  | .tooLarge => "int too large to convert to float"
  | .nullCharacter => "source code string cannot contain null bytes"

/-- Why a text is no literal. -/
inductive Fault where
  | token (fault : TokenFault)
  | constant (fault : ConstantFault)
  | grammar (fault : GrammarFault)
  | value (fault : ValueFault)
  deriving DecidableEq, Repr

/-- The text of the fault. -/
def Fault.message : Fault → String
  | .token f => f.message
  | .constant f => f.message
  | .grammar f => f.message
  | .value f => f.message

/-- The text of the fault, if it is one of an expression inside a text. Faults of characters, and
those further inside, do not tell of the text around them. -/
def Fault.messageInFormat (f : Fault) : String :=
  let tellsOfFormat := match f with
    | .token f => f.isQuiet
    | .constant (.format (.expression _)) => false
    | _ => true
  if tellsOfFormat then "f-string: " ++ f.message else f.message

/-- Whether the text is badly written, rather than without a value. -/
def Fault.isOfWriting : Fault → Bool
  | .value _ => false
  | _ => true

end TreeLint.Literal
