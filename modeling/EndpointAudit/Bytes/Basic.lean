import EndpointAudit.Text.Digits

/-!
# Byte strings

Byte strings and their hexadecimal form.
-/

namespace EndpointAudit

abbrev Bytes := List UInt8

namespace Bytes

/-- The bytes that pairs of hexadecimal digits denote. -/
def ofHexDigits : List Char → Option Bytes
  | [] => some []
  | [_] => none
  | a :: b :: rest => do
    let high ← Text.hexValue a
    let low ← Text.hexValue b
    let bytes ← ofHexDigits rest
    some (UInt8.ofNat (16 * high + low) :: bytes)

def ofHex (text : String) : Option Bytes := ofHexDigits text.toList

def toHex (bytes : Bytes) : String :=
  String.ofList (bytes.flatMap fun b => Text.hex 2 b.toNat)

/-- The text that bytes encode in UTF-8. -/
def text? (bytes : Bytes) : Option String := String.fromUTF8? ⟨bytes.toArray⟩

/-- The unsigned number that bytes denote, the most significant byte first. -/
def toNatBE (bytes : Bytes) : Nat :=
  bytes.foldl (fun n b => 256 * n + b.toNat) 0

end Bytes

end EndpointAudit
