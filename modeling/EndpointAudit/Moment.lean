import EndpointAudit.Text.Digits

/-!
# Moments

A moment is a date and a time of day to the microsecond, with the offset from universal time in
minutes where it is known.
-/

namespace EndpointAudit

structure Moment where
  year : Nat
  month : Nat
  day : Nat
  hour : Nat := 0
  minute : Nat := 0
  second : Nat := 0
  micro : Nat := 0
  offset : Option Int := none
deriving DecidableEq, Repr, Inhabited

namespace Moment

def isLeapYear (year : Nat) : Bool :=
  (year % 4 == 0 && year % 100 != 0) || year % 400 == 0

/-- The number of days of a month, zero for what is no month. -/
def daysInMonth (year month : Nat) : Nat :=
  match month with
  | 2 => if isLeapYear year then 29 else 28
  | 4 | 6 | 9 | 11 => 30
  | 1 | 3 | 5 | 7 | 8 | 10 | 12 => 31
  | _ => 0

/-- Whether year, month and day name a day from year 0 to year 9999. -/
def isDay (year month day : Nat) : Bool :=
  year ≤ 9999 && 1 ≤ day && day ≤ daysInMonth year month

/-- The offset as sign, hours and minutes. -/
def offsetText (minutes : Int) : String :=
  (if minutes < 0 then "-" else "+") ++ Text.zeroPadded 2 (minutes.natAbs / 60) ++ ":" ++
    Text.zeroPadded 2 (minutes.natAbs % 60)

/-- Date and time without the offset. The fraction is written only if there is one. -/
def localText (m : Moment) : String :=
  Text.zeroPadded 4 m.year ++ "-" ++ Text.zeroPadded 2 m.month ++ "-" ++
    Text.zeroPadded 2 m.day ++ "T" ++ Text.zeroPadded 2 m.hour ++ ":" ++
    Text.zeroPadded 2 m.minute ++ ":" ++ Text.zeroPadded 2 m.second ++
    (if m.micro = 0 then "" else "." ++ Text.zeroPadded 6 m.micro)

/-- The text of a moment with a numeric offset. -/
def isoText (m : Moment) : String :=
  m.localText ++ (m.offset.map offsetText).getD ""

/-- The text of a moment in a report, where universal time is marked by a `Z`. -/
def text (m : Moment) : String :=
  m.localText ++ match m.offset with
    | none => ""
    | some 0 => "Z"
    | some minutes => offsetText minutes

/-- The day with a given number of days since 1 January 1970, and the proleptic rules of the
Gregorian calendar. -/
def ofDayNumber (days : Int) : Nat × Nat × Nat :=
  let shifted := days + 719468
  let era := shifted.fdiv 146097
  let dayOfEra := (shifted.fmod 146097).toNat
  let yearOfEra := (dayOfEra - dayOfEra / 1460 + dayOfEra / 36524 - dayOfEra / 146096) / 365
  let dayOfYear := dayOfEra - (365 * yearOfEra + yearOfEra / 4 - yearOfEra / 100)
  let monthIndex := (5 * dayOfYear + 2) / 153
  let day := dayOfYear - (153 * monthIndex + 2) / 5 + 1
  let month := if monthIndex < 10 then monthIndex + 3 else monthIndex - 9
  let year := 400 * era + yearOfEra + (if month ≤ 2 then 1 else 0)
  (year.toNat, month, day)

/-- The moment a number of seconds and microseconds after the start of 1970, in universal time,
if it falls into the years 0 to 9999. -/
def ofUnix? (seconds : Int) (micros : Nat) : Option Moment :=
  let seconds := seconds + micros / 1000000
  if seconds < -62167219200 || 253402300799 < seconds then none
  else
    let (year, month, day) := ofDayNumber (seconds.fdiv 86400)
    let rest := (seconds.fmod 86400).toNat
    some { year, month, day, hour := rest / 3600, minute := rest / 60 % 60, second := rest % 60,
           micro := micros % 1000000, offset := some 0 }

end Moment

end EndpointAudit
