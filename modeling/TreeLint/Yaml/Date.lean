import TreeLint.Yaml.Fault
import TreeLint.Yaml.Implicit

/-!
# Dates and Times

A date of the calendar, with a time of day or without, and the text that shows it.
-/

namespace TreeLint.Yaml

/-- Whether a year has a leap day. -/
def isLeapYear (year : Nat) : Bool := year % 4 = 0 && (year % 100 != 0 || year % 400 = 0)

/-- How many days a month has. -/
def daysIn (year month : Nat) : Nat :=
  if month = 2 then (if isLeapYear year then 29 else 28)
  else if [4, 6, 9, 11].contains month then 30
  else 31

/-- A day of the calendar. -/
structure Day where
  year : Nat
  month : Nat
  day : Nat

/-- The day with a given year, month and day, if there is one. -/
def Day.of (year month day : Nat) : Except DateFault Day :=
  if year = 0 then .error (.year year)
  else if month = 0 || 12 < month then .error .month
  else if day = 0 || daysIn year month < day then .error .day
  else .ok ⟨year, month, day⟩

/-- How many days a day comes after the last one before the calendar. -/
def Day.number (d : Day) : Nat :=
  let years := d.year - 1
  let months := (List.range (d.month - 1)).map fun m => daysIn d.year (m + 1)
  365 * years + years / 4 - years / 100 + years / 400 + months.foldl (· + ·) 0 + d.day

/-- A time of day. -/
structure TimeOfDay where
  hour : Nat
  minute : Nat
  second : Nat
  microsecond : Nat

/-- The time with a given hour, minute and second, if there is one. -/
def TimeOfDay.of (hour minute second microsecond : Nat) : Except DateFault TimeOfDay :=
  if 23 < hour then .error .hour
  else if 59 < minute then .error .minute
  else if 59 < second then .error .second
  else .ok ⟨hour, minute, second, microsecond⟩

/-- A distance from universal time in minutes, which is less than a day. -/
def zoneOffset (minutes : Int) : Except DateFault Int :=
  if minutes.natAbs < 1440 then .ok minutes else .error (.offset minutes)

/-- The number of digits. -/
def digitsOf (cs : List Char) : Nat := cs.foldl (fun n c => 10 * n + (c.toNat - 48)) 0

/-- The first six digits of a fraction of a second. -/
def microsecondsOf (fraction : List Char) : Nat :=
  let digits := fraction.take 6
  digitsOf digits * Nat.pow 10 (6 - digits.length)

/-- A day, alone or with a time and perhaps the minutes from universal time. -/
structure Moment where
  day : Day
  time : Option (TimeOfDay × Option Int) := none

/-- The moment that the digits of a date write. -/
def Moment.ofTimestamp (t : Timestamp) : Except DateFault Moment := do
  let day := Day.of (digitsOf t.year) (digitsOf t.month) (digitsOf t.day)
  match t.time with
  | none => return ⟨← day, none⟩
  | some (hour, minute, second, fraction) =>
    let zone ← t.zone.mapM fun (isBehind, hours, minutes) =>
      let offset : Int := 60 * digitsOf hours + digitsOf minutes
      zoneOffset (if isBehind then -offset else offset)
    let day ← day
    let time ← TimeOfDay.of (digitsOf hour) (digitsOf minute) (digitsOf second)
      (microsecondsOf fraction)
    return ⟨day, some (time, zone)⟩

/-- When a moment is, in microseconds of universal time, if it tells how far from that it is. -/
def Moment.instant? (m : Moment) : Option Int := do
  let (t, zone) ← m.time
  let minutes := 1440 * (m.day.number : Int) + 60 * t.hour + t.minute - (← zone)
  return 1000000 * (60 * minutes + t.second) + t.microsecond

/-- The text that shows a zone. -/
def zoneText (minutes : Int) : String :=
  if minutes = 0 then "datetime.timezone.utc"
  else "datetime.timezone(" ++ durationText minutes ++ ")"

/-- The text that shows a moment. Seconds and their fractions are left out when they are zero. -/
def Moment.text (m : Moment) : String :=
  let d := m.day
  let day := s!"{d.year}, {d.month}, {d.day}"
  match m.time with
  | none => s!"datetime.date({day})"
  | some (t, zone) =>
    let seconds :=
      if t.microsecond != 0 then s!", {t.second}, {t.microsecond}"
      else if t.second != 0 then s!", {t.second}"
      else ""
    let zone := match zone with
      | some minutes => ", tzinfo=" ++ zoneText minutes
      | none => ""
    s!"datetime.datetime({day}, {t.hour}, {t.minute}{seconds}{zone})"

end TreeLint.Yaml
