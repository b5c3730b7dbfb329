import EndpointAudit.Bytes.Base64
import EndpointAudit.Data.Basic
import EndpointAudit.Yaml.Numeral
import EndpointAudit.Yaml.Schema

/-!
# Values of scalars

What a scalar of a given kind stands for. A scalar that holds halves of surrogate pairs has no text,
and is nothing but a string.
-/

namespace EndpointAudit.Yaml

/-- A whole number. One beyond sixty-four bits is kept as the nearest double, if there is one. -/
def intData (n : Int) : Data :=
  let x := Decimal.ofInt n
  if Data.fitsWord n || x.isInf then .int n else .float x.toBits

def boolValue (text : String) : Except Fault Data :=
  let word := Text.lower text
  if trueWords.contains word then .ok (.bool true)
  else if falseWords.contains word then .ok (.bool false)
  else .error .badFlag

/-- Whether a spelled moment exists. Years begin with 1, and offsets reach up to a day. -/
def exists? (m : Moment) : Bool :=
  1 ≤ m.year && Moment.isDay m.year m.month m.day && m.hour ≤ 23 && m.minute ≤ 59 &&
    m.second ≤ 59 && m.offset.all fun minutes => minutes.natAbs < 1440

def momentValue (text : String) : Except Fault Data :=
  match spelled? (spelling text.toList) with
  | none => .error .badMoment
  | some s => if exists? s.moment then .ok (.moment s.moment) else .error .noSuchMoment

def binaryValue (text : String) : Except Fault Data :=
  if text.toList.any (0x80 ≤ ·.toNat) then .error .malformed
  else match Bytes.ofBase64 text with
    | some bytes => .ok (.bytes bytes)
    | none => .error .malformed

def textValue (tag : Tag) (text : String) : Except Fault Data :=
  match tag with
  | .null => .ok .null
  | .bool => boolValue text
  | .int => intData <$> readWhole text.toList
  | .float => (fun x => .float x.toBits) <$> readFloat text.toList
  | .timestamp => momentValue text
  | .text => .ok (.text text)
  | .binary => binaryValue text
  | _ => .error .malformed

/-- What a string of a given kind stands for that is no text. -/
def brokenValue (tag : Tag) : Except Fault Data :=
  match tag with
  | .null => .ok .null
  | .bool => .error .badFlag
  | .int | .float => .error .badNumber
  | .timestamp => .error .badMoment
  | .text => .ok .brokenText
  | _ => .error .malformed

def scalarValue (tag : Tag) (text : Option String) : Except Fault Data :=
  match text with
  | some text => textValue tag text
  | none => brokenValue tag

end EndpointAudit.Yaml
