import EndpointAudit.Decimal
import EndpointAudit.Moment

/-!
# Reading moments

A moment may be written as a date and a time of day, as a date alone, or as the time elapsed since
the start of 1970, in seconds or, if the number is large, in milliseconds.
-/

namespace EndpointAudit.Moment

def twoDigits : List Char → Option (Nat × List Char)
  | a :: b :: rest =>
    if Text.isDigit a && Text.isDigit b then some (Text.decimalNumber [a, b], rest) else none
  | _ => none

/-- What follows a character in front. -/
def expect (c : Char) : List Char → Option (List Char)
  | d :: rest => if d = c then some rest else none
  | [] => none

def readDate (cs : List Char) : Option ((Nat × Nat × Nat) × List Char) := do
  let (century, rest) ← twoDigits cs
  let (yearOfCentury, rest) ← twoDigits rest
  let rest ← expect '-' rest
  let (month, rest) ← twoDigits rest
  let rest ← expect '-' rest
  let (day, rest) ← twoDigits rest
  let year := 100 * century + yearOfCentury
  if isDay year month day then some ((year, month, day), rest) else none

/-- The microseconds that the digits of a fraction denote; digits behind the sixth are dropped. -/
def microsOf (digits : List Char) : Nat :=
  Text.decimalNumber ((digits ++ List.replicate 6 '0').take 6)

/-- The fraction of a second behind a point or a comma, if there is one. -/
def readFraction (cs : List Char) : Option (Nat × List Char) :=
  match cs with
  | c :: rest =>
    if c = '.' ∨ c = ',' then
      match rest.span Text.isDigit with
      | ([], _) => none
      | (digits, after) => some (microsOf digits, after)
    else some (0, cs)
  | [] => some (0, [])

/-- Seconds and microseconds, if they are written. -/
def readSeconds (cs : List Char) : Option ((Nat × Nat) × List Char) :=
  match cs with
  | ':' :: rest => do
    let (second, rest) ← twoDigits rest
    let (micro, rest) ← readFraction rest
    if second ≤ 59 then some ((second, micro), rest) else none
  | _ => some ((0, 0), cs)

/-- The offset at the end of a text, in minutes. -/
def readOffset (cs : List Char) : Option (Option Int) :=
  match cs with
  | [] => some none
  | c :: rest =>
    if c = 'Z' ∨ c = 'z' then (if rest.isEmpty then some (some 0) else none)
    else do
      let sign : Int ← if c = '+' then some 1
        else if c = '-' ∨ c.toNat = 0x2212 then some (-1) else none
      let (hours, rest) ← twoDigits rest
      let (minutes, rest) ← twoDigits ((expect ':' rest).getD rest)
      if rest.isEmpty && minutes < 60 && hours < 24 then
        some (some (sign * (60 * hours + minutes)))
      else none

def ofDateTime? (cs : List Char) : Option Moment := do
  let ((year, month, day), rest) ← readDate cs
  let rest ← match rest with
    | c :: more => if c = 'T' ∨ c = 't' ∨ c = ' ' ∨ c = '_' then some more else none
    | [] => none
  let (hour, rest) ← twoDigits rest
  let rest ← expect ':' rest
  let (minute, rest) ← twoDigits rest
  let ((second, micro), rest) ← readSeconds rest
  let offset ← readOffset rest
  if hour ≤ 23 && minute ≤ 59 then
    some { year, month, day, hour, minute, second, micro, offset }
  else none

/-- The start of the day that a date denotes. -/
def ofDate? (cs : List Char) : Option Moment :=
  match readDate cs with
  | some ((year, month, day), []) => some { year, month, day }
  | _ => none

/-- The largest number that is taken for seconds and not for milliseconds. -/
def watershed : Nat := 20000000000

def ofMillis? (millis : Int) (micros : Nat) : Option Moment :=
  ofUnix? (millis.fdiv 1000) ((millis.fmod 1000).toNat * 1000 + micros)

/-- The moment a whole number of seconds or milliseconds after the start of 1970. -/
def ofElapsed? (elapsed : Int) : Option Moment :=
  if elapsed.natAbs ≤ watershed then ofUnix? elapsed 0 else ofMillis? elapsed 0

/-- The number of units, of which there are `units` in one, that a fraction of one comes to. -/
def unitsIn (fraction units : Float) : Nat := (fraction * units).round.toUInt64.toNat

/-- The moment a number of seconds or milliseconds after the start of 1970, to the nearest
microsecond. The whole part is cut to sixty-four bits, which is far beyond all moments. -/
def ofFloat? (x : Float) : Option Moment :=
  let whole := x.floor.toInt64.toInt
  let fraction := x - x.floor
  if x.isNaN then none
  else if x.abs > Float.ofNat watershed then ofMillis? whole (unitsIn fraction 1000.0)
  else ofUnix? whole (unitsIn fraction 1000000.0)

def ofNumeral? (cs : List Char) : Option Moment :=
  let (negative, digits) := match cs with
    | '-' :: rest => (true, rest)
    | '+' :: rest => (false, rest)
    | rest => (false, rest)
  match digits.span Text.isDigit with
  | ([], _) => none
  | (whole, []) =>
    let n : Int := Text.decimalNumber whole
    if n < 0x8000000000000000 then ofElapsed? (if negative then -n else n) else none
  | (whole, '.' :: fraction) =>
    if fraction.all Text.isDigit && Text.decimalNumber whole < 0x8000000000000000 then
      ofFloat? (Decimal.nearest negative (Text.decimalNumber (whole ++ fraction))
        (-fraction.length))
    else none
  | _ => none

def ofText? (text : String) : Option Moment :=
  (ofDateTime? text.toList).or ((ofNumeral? text.toList).or (ofDate? text.toList))

end EndpointAudit.Moment
