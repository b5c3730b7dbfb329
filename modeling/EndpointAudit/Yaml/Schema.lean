import EndpointAudit.Moment.Reader
import EndpointAudit.Text.Split

/-!
# What plain scalars stand for

A scalar without quotes stands for a null, a flag, a number or a moment if it looks like one, and
for itself otherwise. The kinds are told apart by the spelling alone; the value is worked out
separately, and it may turn out that a spelling has none.
-/

namespace EndpointAudit.Yaml

inductive Tag where
  | null
  | bool
  | int
  | float
  | timestamp
  | text
  /-- The key under which entries of other mappings are merged in. -/
  | merge
  /-- The key of a mapping's default value. -/
  | default
  | binary
  | sequence
  | mapping
  | set
  /-- A list of pairs, each of which is written as a mapping. -/
  | pairs
  | unknown
deriving DecidableEq, Repr

/-! ## Spellings -/

def unsigned : List Char → List Char
  | '+' :: rest => rest
  | '-' :: rest => rest
  | cs => cs

def isDigitOrGap (c : Char) : Bool := Text.isDigit c || c == '_'

def isBaseDigit (base : Nat) (c : Char) : Bool :=
  c == '_' || (Text.hexValue c).any (· < base)

/-- Whether a part of a base-sixty numeral is one or two digits below sixty. -/
def isSixtieth : List Char → Bool
  | [a] => Text.isDigit a
  | [a, b] => Text.isDigit a && a.toNat < 0x36 && Text.isDigit b
  | _ => false

/-- Whether a numeral is written in base sixty, its parts divided by colons. -/
def isSexagesimal (cs : List Char) : Bool :=
  match Text.splitAtChar ':' cs with
  | whole :: part :: parts =>
    whole.head?.any Text.isDigit && whole.all isDigitOrGap && (part :: parts).all isSixtieth
  | _ => false

def isInt (cs : List Char) : Bool :=
  match unsigned cs with
  | [] => false
  | ['0'] => true
  | '0' :: 'b' :: digits => !digits.isEmpty && digits.all (isBaseDigit 2)
  | '0' :: 'x' :: digits => !digits.isEmpty && digits.all (isBaseDigit 16)
  | '0' :: digits => digits.all (isBaseDigit 8)
  | c :: cs => Text.isDigit c && ((c :: cs).all isDigitOrGap || isSexagesimal (c :: cs))

/-- Whether a text is empty or an exponent, whose sign must be written. -/
def isExponent : List Char → Bool
  | [] => true
  | e :: sign :: digits =>
    (e == 'e' || e == 'E') && (sign == '+' || sign == '-') && !digits.isEmpty &&
      digits.all Text.isDigit
  | _ => false

def isFraction (cs : List Char) : Bool := isExponent (cs.dropWhile isDigitOrGap)

def isFloat (cs : List Char) : Bool :=
  let body := unsigned cs
  [".inf", ".Inf", ".INF"].contains (String.ofList body) ||
    [".nan", ".NaN", ".NAN"].contains (String.ofList cs) ||
    (match cs with
      | '.' :: c :: rest => Text.isDigit c && isFraction rest
      | _ => false) ||
    (match body.span (· ≠ '.') with
      | (whole, '.' :: fraction) =>
        whole.head?.any Text.isDigit &&
          ((whole.all isDigitOrGap && isFraction fraction) ||
            (isSexagesimal whole && fraction.all isDigitOrGap))
      | _ => false)

def falseWords : List String :=
  ["no", "No", "NO", "false", "False", "FALSE", "off", "Off", "OFF"]

def trueWords : List String :=
  ["yes", "Yes", "YES", "true", "True", "TRUE", "on", "On", "ON"]

def nullWords : List String := ["~", "null", "Null", "NULL"]

/-- A scalar as its spelling is looked at: without a line feed at its end. -/
def spelling (cs : List Char) : List Char :=
  if cs.getLast? = some '\n' then cs.dropLast else cs

/-! ## Moments -/

/-- A moment as it is spelled, whether it exists or not. -/
structure Spelled where
  moment : Moment
  /-- Whether there is a time of day. -/
  timed : Bool

def readDigits : List Char → Option (Nat × List Char)
  | a :: b :: rest =>
    if Text.isDigit a then
      if Text.isDigit b then some (Text.decimalNumber [a, b], rest)
      else some (Text.decimalNumber [a], b :: rest)
    else none
  | [a] => if Text.isDigit a then some (Text.decimalNumber [a], []) else none
  | [] => none

def isGap (c : Char) : Bool := c == ' ' || c == '\t'

def readOffset (cs : List Char) : Option (Option Int) :=
  match cs.dropWhile isGap with
  | [] => if cs.isEmpty then some none else none
  | ['Z'] => some (some 0)
  | c :: rest => do
    let sign : Int ← if c = '+' then some 1 else if c = '-' then some (-1) else none
    match ← readDigits rest with
    | (hours, []) => some (some (sign * (60 * hours)))
    | (hours, ':' :: rest) =>
      match ← Moment.twoDigits rest with
      | (minutes, []) => some (some (sign * (60 * hours + minutes)))
      | _ => none
    | _ => none

/-- The fraction of a second, which may lack its digits. -/
def readFraction : List Char → Nat × List Char
  | '.' :: rest => (Moment.microsOf (rest.takeWhile Text.isDigit), rest.dropWhile Text.isDigit)
  | cs => (0, cs)

def spelled? (cs : List Char) : Option Spelled := do
  let (century, rest) ← Moment.twoDigits cs
  let (yearOfCentury, rest) ← Moment.twoDigits rest
  let (month, rest) ← readDigits (← Moment.expect '-' rest)
  let (day, rest) ← readDigits (← Moment.expect '-' rest)
  let date : Moment := { year := 100 * century + yearOfCentury, month, day }
  match rest with
  | [] => some { moment := date, timed := false }
  | c :: more =>
    let rest ← if c = 'T' ∨ c = 't' then some more
      else if isGap c then some (more.dropWhile isGap) else none
    let (hour, rest) ← readDigits rest
    let (minute, rest) ← Moment.twoDigits (← Moment.expect ':' rest)
    let (second, rest) ← Moment.twoDigits (← Moment.expect ':' rest)
    let (micro, rest) := readFraction rest
    let offset ← readOffset rest
    some { moment := { date with hour, minute, second, micro, offset }, timed := true }

/-- Whether a scalar is spelled like a moment. A date alone needs two digits for month and day. -/
def isTimestamp (cs : List Char) : Bool :=
  (spelled? cs).any fun s => s.timed || cs.length == 10

/-- The kind that a plain scalar is taken for. -/
def tagOf (text : String) : Tag :=
  let cs := spelling text.toList
  let word := String.ofList cs
  if text = "" || nullWords.contains word then .null
  else if falseWords.contains word || trueWords.contains word then .bool
  else if isInt cs then .int
  else if isFloat cs then .float
  else if isTimestamp cs then .timestamp
  else if word = "<<" then .merge
  else if word = "=" then .default
  else .text

end EndpointAudit.Yaml
