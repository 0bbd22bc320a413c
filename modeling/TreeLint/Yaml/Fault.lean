import TreeLint.Json.Display
import TreeLint.Text.Utf8

/-!
# What Is Wrong with a YAML Text

Most faults are of the text as YAML, and are not told apart. A scalar can also be good YAML and
yet stand for nothing, like the thirteenth month of a year; such a fault has a text of its own.
-/

namespace TreeLint.Yaml

/-- A part of a date or a time that does not exist. -/
inductive DateFault where
  | year (year : Nat)
  | month
  | day
  | hour
  | minute
  | second
  /-- The distance from universal time, in minutes, is a day or more. -/
  | offset (minutes : Int)
  deriving DecidableEq, Repr

/-- A span of time as days and seconds, of which the seconds are not negative. -/
def durationText (minutes : Int) : String :=
  let days := minutes.fdiv 1440
  let seconds := 60 * minutes.fmod 1440
  let parts := (if days = 0 then [] else [s!"days={days}"]) ++
    (if seconds = 0 then [] else [s!"seconds={seconds}"])
  "datetime.timedelta(" ++ (if parts.isEmpty then "0" else ", ".intercalate parts) ++ ")"

/-- The text of the fault. -/
def DateFault.message : DateFault → String
  | .year y => s!"year {y} is out of range"
  | .month => "month must be in 1..12"
  | .day => "day is out of range for month"
  | .hour => "hour must be in 0..23"
  | .minute => "minute must be in 0..59"
  | .second => "second must be in 0..59"
  | .offset minutes => "offset must be a timedelta strictly between -timedelta(hours=24) and " ++
      "timedelta(hours=24), not " ++ durationText minutes ++ "."

/-- Why a scalar stands for nothing. -/
inductive ScalarFault where
  /-- An escape has a number beyond those of characters. -/
  | charRange (code : Nat)
  | tooManyDigits (fault : DigitLimit)
  | notAnInteger (base : Nat) (text : String)
  | notADecimal (text : String)
  /-- A number has no characters. -/
  | emptyNumber
  /-- A place of a number in base sixty weighs more than any double. -/
  | tooManyPlaces
  | notATruthValue (text : String)
  | notATimestamp
  /-- A mapping stands where the text of a date has to. -/
  | timestampOfMapping
  | noSuchDate (fault : DateFault)
  deriving DecidableEq, Repr

/-- The greatest number that an escape can have and still be compared with those of
characters. -/
def charCodeLimit : Nat := Nat.pow 2 31

/-- How much of a text is shown that is no whole number, with its quotes. -/
def shownLimit : Nat := 200

/-- The text of the fault. -/
def ScalarFault.message : ScalarFault → String
  | .charRange code =>
    if code < charCodeLimit then "chr() arg not in range(0x110000)"
    else "Python int too large to convert to C int"
  | .tooManyDigits fault => fault.message
  | .notAnInteger base text =>
    let shown := String.ofList ((Text.quoted text).toList.take shownLimit)
    s!"invalid literal for int() with base {base}: {shown}"
  | .notADecimal text => s!"could not convert string to float: {Text.quoted text}"
  | .emptyNumber => "string index out of range"
  | .tooManyPlaces => "int too large to convert to float"
  | .notATruthValue text => Text.quoted text
  | .notATimestamp => "'NoneType' object has no attribute 'groupdict'"
  | .timestampOfMapping => "expected string or bytes-like object, got 'list'"
  | .noSuchDate fault => fault.message

/-- Whether the value of a scalar is at fault, and not its form. -/
def ScalarFault.isValueFault : ScalarFault → Bool
  | .charRange code => decide (code < charCodeLimit)
  | .tooManyDigits _ | .notAnInteger .. | .notADecimal _ | .noSuchDate _ => true
  | .emptyNumber | .tooManyPlaces | .notATruthValue _ | .notATimestamp | .timestampOfMapping =>
    false

/-- Why a text has no value. -/
inductive Fault where
  | malformed
  | scalar (fault : ScalarFault)
  /-- Parts stand one inside the other too often to be followed. -/
  | tooDeep
  /-- The bytes of the text do not encode characters. -/
  | undecodable (fault : Text.Undecodable)
  deriving DecidableEq, Repr

end TreeLint.Yaml
