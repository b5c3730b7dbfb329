import EndpointAudit.Data.Basic
import EndpointAudit.Decimal

/-!
# Reading JSON

A reader of JSON text. Beside the standard it takes the names of the not-a-number and infinite
values as numbers. Objects and arrays may be nested two hundred deep. An escape that names half a
surrogate pair is refused, so that every string read is a text.
-/

namespace EndpointAudit.Json

def isSpace (c : Char) : Bool :=
  c == ' ' || c == '\n' || c == '\t' || c == '\r'

def skipSpace (cs : List Char) : List Char := cs.dropWhile isSpace

/-- The number that four hexadecimal digits denote, and what follows them. -/
def fourHex : List Char → Option (Nat × List Char)
  | a :: b :: c :: d :: rest => (Text.hexNumber [a, b, c, d]).map (·, rest)
  | _ => none

/-- The character an escape with the number `unit` denotes. The first half of a pair must be
followed by an escape with the second half. -/
def unitChar (unit : Nat) (rest : List Char) : Option (Char × List Char) :=
  if 0xD800 ≤ unit && unit ≤ 0xDBFF then
    match rest with
    | '\\' :: 'u' :: more => do
      let (low, after) ← fourHex more
      if 0xDC00 ≤ low && low ≤ 0xDFFF then
        some (Char.ofNat (0x10000 + (unit - 0xD800) * 0x400 + (low - 0xDC00)), after)
      else none
    | _ => none
  else if 0xDC00 ≤ unit && unit ≤ 0xDFFF then none
  else some (Char.ofNat unit, rest)

/-- What the characters behind a backslash denote. -/
def escapeChar : List Char → Option (Char × List Char)
  | [] => none
  | c :: rest =>
    match c with
    | '"' => some ('"', rest)
    | '\\' => some ('\\', rest)
    | '/' => some ('/', rest)
    | 'b' => some (Char.ofNat 0x08, rest)
    | 'f' => some (Char.ofNat 0x0C, rest)
    | 'n' => some ('\n', rest)
    | 'r' => some ('\r', rest)
    | 't' => some ('\t', rest)
    | 'u' => do
      let (unit, after) ← fourHex rest
      unitChar unit after
    | _ => none

/-- The rest of a string behind its opening quote, and what follows the closing one. `read` holds
the characters read so far, the last one first. -/
def stringRest : (fuel : Nat) → (read : List Char) → List Char → Option (String × List Char)
  | 0, _, _ => none
  | _ + 1, _, [] => none
  | fuel + 1, read, c :: rest =>
    if c = '"' then some (String.ofList read.reverse, rest)
    else if c = '\\' then do
      let (e, after) ← escapeChar rest
      stringRest fuel (e :: read) after
    else if c.toNat < 0x20 then none
    else stringRest fuel (c :: read) rest

/-- The digits in front of a text, at least one, and what follows them. -/
def digits (cs : List Char) : Option (List Char × List Char) :=
  match cs.span Text.isDigit with
  | ([], _) => none
  | (ds, rest) => some (ds, rest)

/-- The fraction behind a number's whole part: its digits, if there are any. -/
def fraction : List Char → Option (Option (List Char) × List Char)
  | '.' :: rest => (digits rest).map fun (ds, after) => (some ds, after)
  | cs => some (none, cs)

def exponent : List Char → Option (Option Int × List Char)
  | c :: rest =>
    if c = 'e' ∨ c = 'E' then
      let (sign, rest) : Int × List Char := match rest with
        | '-' :: more => (-1, more)
        | '+' :: more => (1, more)
        | more => (1, more)
      (digits rest).map fun (ds, after) => (some (sign * Text.decimalNumber ds), after)
    else some (none, c :: rest)
  | [] => some (none, [])

def double (negative : Bool) (whole fraction : List Char) (exponent : Int) : Data :=
  .float (Decimal.nearest negative (Text.decimalNumber (whole ++ fraction))
    (exponent - fraction.length)).toBits

/-- The number of characters that the sign and the whole part of a number may have. -/
def maxWhole : Nat := 4300

def number (negative : Bool) (cs : List Char) : Option (Data × List Char) := do
  let (whole, rest) ← digits cs
  if whole.length > 1 && whole.head? == some '0' then none
  if whole.length + (if negative then 1 else 0) > maxWhole then none
  let (frac, rest) ← fraction rest
  let (exp, rest) ← exponent rest
  match frac, exp with
  | none, none =>
    let n : Int := Text.decimalNumber whole
    some (.int (if negative then -n else n), rest)
  | _, _ => some (double negative whole (frac.getD []) (exp.getD 0), rest)

/-- What follows a word, if the text begins with it. -/
def keyword (word : String) (cs : List Char) : Option (List Char) :=
  if word.toList.isPrefixOf cs then some (cs.drop word.length) else none

/-- A value that is no string, list or mapping. -/
def scalar (cs : List Char) : Option (Data × List Char) :=
  match cs with
  | 'n' :: _ => (keyword "null" cs).map (.null, ·)
  | 't' :: _ => (keyword "true" cs).map (.bool true, ·)
  | 'f' :: _ => (keyword "false" cs).map (.bool false, ·)
  | 'N' :: _ => (keyword "NaN" cs).map (.float (0.0 / 0.0 : Float).toBits, ·)
  | 'I' :: _ => (keyword "Infinity" cs).map (.float (1.0 / 0.0 : Float).toBits, ·)
  | '-' :: 'I' :: rest =>
    (keyword "Infinity" ('I' :: rest)).map (.float (-1.0 / 0.0 : Float).toBits, ·)
  | '-' :: rest => number true rest
  | _ => number false cs

mutual

/-- A value, white space in front allowed. `depth` is the number of levels it may still open. -/
def value : (fuel : Nat) → (depth : Nat) → List Char → Option (Data × List Char)
  | 0, _, _ => none
  | fuel + 1, depth, cs =>
    match skipSpace cs with
    | '"' :: rest => (stringRest (rest.length + 1) [] rest).map fun (s, after) => (.text s, after)
    | '[' :: rest =>
      match skipSpace rest with
      | ']' :: after => some (.list [], after)
      | inner => match depth with
        | 0 => none
        | depth + 1 => (items fuel depth inner).map fun (ds, after) => (.list ds, after)
    | '\x7b' :: rest =>
      match skipSpace rest with
      | '\x7d' :: after => some (.map [], after)
      | inner => match depth with
        | 0 => none
        | depth + 1 => (entries fuel depth inner).map fun (ds, after) => (.map ds, after)
    | cs => scalar cs

/-- The items of a list up to its closing bracket, at least one. -/
def items : (fuel : Nat) → (depth : Nat) → List Char → Option (List Data × List Char)
  | 0, _, _ => none
  | fuel + 1, depth, cs => do
    let (d, rest) ← value fuel depth cs
    match skipSpace rest with
    | ']' :: after => some ([d], after)
    | ',' :: more => (items fuel depth more).map fun (ds, after) => (d :: ds, after)
    | _ => none

def entries : (fuel : Nat) → (depth : Nat) → List Char → Option (List (String × Data) × List Char)
  | 0, _, _ => none
  | fuel + 1, depth, cs =>
    match skipSpace cs with
    | '"' :: rest => do
      let (key, rest) ← stringRest (rest.length + 1) [] rest
      match skipSpace rest with
      | ':' :: rest => do
        let (d, rest) ← value fuel depth rest
        match skipSpace rest with
        | '\x7d' :: after => some ([(key, d)], after)
        | ',' :: more => (entries fuel depth more).map fun (ds, after) => ((key, d) :: ds, after)
        | _ => none
      | _ => none
    | _ => none

end

/-- The number of levels a value may open. -/
def maxDepth : Nat := 200

/-- The value a JSON text holds, or `none` if it is no JSON text. -/
def read (text : String) : Option Data := do
  let cs := text.toList
  let (d, rest) ← value (2 * cs.length + 2) maxDepth cs
  if (skipSpace rest).isEmpty then some d else none

end EndpointAudit.Json
