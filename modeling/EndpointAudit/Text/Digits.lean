/-!
# Numerals

Hexadecimal and zero-padded decimal numerals.
-/

namespace EndpointAudit.Text

def hexDigit (n : Nat) : Char :=
  if n < 10 then Char.ofNat (0x30 + n) else Char.ofNat (0x57 + n)

/-- The value of a hexadecimal digit in either case. -/
def hexValue (c : Char) : Option Nat :=
  let n := c.toNat
  if 0x30 ≤ n && n ≤ 0x39 then some (n - 0x30)
  else if 0x41 ≤ n && n ≤ 0x46 then some (n - 0x37)
  else if 0x61 ≤ n && n ≤ 0x66 then some (n - 0x57)
  else none

/-- The lowest `width` hexadecimal digits of a number. -/
def hex : (width n : Nat) → List Char
  | 0, _ => []
  | width + 1, n => hex width (n / 16) ++ [hexDigit (n % 16)]

def hexUpper (width n : Nat) : List Char :=
  (hex width n).map Char.toUpper

def hexNumber (digits : List Char) : Option Nat :=
  digits.foldlM (fun n c => (hexValue c).map (16 * n + ·)) 0

def isDigit (c : Char) : Bool :=
  0x30 ≤ c.toNat && c.toNat ≤ 0x39

def decimalNumber (digits : List Char) : Nat :=
  digits.foldl (fun n c => 10 * n + (c.toNat - 0x30)) 0

/-- A decimal numeral filled up on the left with `fill` to at least `width` characters. -/
def padLeft (fill : Char) (width : Nat) (numeral : String) : String :=
  String.ofList (List.replicate (width - numeral.length) fill) ++ numeral

def zeroPadded (width n : Nat) : String :=
  padLeft '0' width (toString n)

end EndpointAudit.Text
