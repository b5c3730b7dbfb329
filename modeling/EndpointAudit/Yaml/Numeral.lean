import EndpointAudit.Decimal
import EndpointAudit.Text.Case
import EndpointAudit.Text.DecimalDigit
import EndpointAudit.Text.Split
import EndpointAudit.Yaml.Fault

/-!
# Numerals of YAML

The numbers that scalars stand for. A scalar that is said to be a number need not be spelled like
one, so blanks around it, digits of all scripts and signs within it have a meaning as well.
Underscores between digits are ignored. Whole numbers may be binary, octal or hexadecimal. Both
kinds of number may be written in base sixty, the places divided by colons.
-/

namespace EndpointAudit.Yaml

def withoutGaps (cs : List Char) : List Char := cs.filter (· != '_')

/-- Whether a numeral has a minus sign in front, and what follows its sign. -/
def readSign : List Char → Bool × List Char
  | '-' :: rest => (true, rest)
  | '+' :: rest => (false, rest)
  | cs => (false, cs)

/-! ## Whole numbers -/

def numberIn (base : Nat) (digits : List Char) : Option Nat :=
  if digits.isEmpty then none
  else digits.foldlM (fun n c => do
    let d ← Text.hexValue c
    if d < base then some (base * n + d) else none) 0

def withoutMark (base : Nat) : List Char → List Char
  | '0' :: mark :: digits =>
    if (base, mark.toLower) ∈ [(2, 'b'), (8, 'o'), (16, 'x')] then digits else '0' :: mark :: digits
  | cs => cs

/-- The most digits of a decimal numeral that is a whole number. -/
def maxDigits : Nat := 4300

/-- The number that a numeral of a base denotes, which may have blanks around it and a sign. -/
def wholeNumber (base : Nat) (cs : List Char) : Except Fault Int :=
  let (negative, cs) := readSign (Text.plainNumeral cs)
  let digits := withoutMark base cs
  if base = 10 ∧ maxDigits < digits.length then .error .badNumber
  else match numberIn base digits with
    | some n => .ok (if negative then -n else n)
    | none => .error .badNumber

/-- The number whose places in base sixty are given, the first one first. -/
def ofSixtieths (places : List Int) : Int := places.foldl (fun n place => 60 * n + place) 0

/-- The number that a numeral without its sign denotes. A zero in front makes it octal. -/
def unsignedWhole : List Char → Except Fault Int
  | [] => .error .noDigits
  | ['0'] => .ok 0
  | '0' :: 'b' :: digits => wholeNumber 2 digits
  | '0' :: 'x' :: digits => wholeNumber 16 digits
  | '0' :: digits => wholeNumber 8 ('0' :: digits)
  | cs => ofSixtieths <$> (Text.splitAtChar ':' cs).mapM (wholeNumber 10)

def readWhole (cs : List Char) : Except Fault Int := do
  let (negative, cs) := readSign (withoutGaps cs)
  let n ← unsignedWhole cs
  return if negative then -n else n

/-! ## Numbers with a fraction -/

def readExponent : List Char → Option Int
  | [] => some 0
  | e :: rest =>
    let (negative, digits) := readSign rest
    if e = 'e' then (numberIn 10 digits).map fun n => if negative then -(n : Int) else n else none

/-- The double nearest to what digits with a point and an exponent denote. -/
def decimal? (negative : Bool) (cs : List Char) : Option Float := do
  let (whole, rest) := cs.span Text.isDigit
  let (fraction, rest) := match rest with
    | '.' :: rest => rest.span Text.isDigit
    | rest => ([], rest)
  let exponent ← readExponent rest
  if whole.isEmpty && fraction.isEmpty then none
  else some (Decimal.nearest negative (Text.decimalNumber (whole ++ fraction))
    (exponent - fraction.length))

/-- The double that a numeral in small letters denotes, which may have blanks around it and a
sign. -/
def float (cs : List Char) : Except Fault Float :=
  let (negative, cs) := readSign (Text.plainNumeral cs)
  let word := String.ofList cs
  if word = "inf" ∨ word = "infinity" then .ok (if negative then -1.0 / 0.0 else 1.0 / 0.0)
  else if word = "nan" then .ok (0.0 / 0.0)
  else match decimal? negative cs with
    | some x => .ok x
    | none => .error .badNumber

/-- The sum of places in base sixty, the last one first, where the first given counts `unit`. -/
def sumSixtieths (sum : Float) (unit : Nat) : List Float → Except Fault Float
  | [] => .ok sum
  | place :: places =>
    let size := Decimal.magnitude unit 0
    if size.isInf then .error .hugeNumber
    else sumSixtieths (sum + place * size) (60 * unit) places

def unsignedFloat (cs : List Char) : Except Fault Float := do
  if cs = ".inf".toList then return 1.0 / 0.0
  else if cs = ".nan".toList then return 0.0 / 0.0
  else if cs.contains ':' then
    let places ← (Text.splitAtChar ':' cs).mapM float
    sumSixtieths 0.0 1 places.reverse
  else float cs

def readFloat (cs : List Char) : Except Fault Float := do
  let cs := (Text.lower (String.ofList (withoutGaps cs))).toList
  if cs.isEmpty then throw .noDigits
  let (negative, cs) := readSign cs
  let x ← unsignedFloat cs
  return if negative then -x else x

end EndpointAudit.Yaml
