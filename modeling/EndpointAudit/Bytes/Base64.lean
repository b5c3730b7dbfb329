import EndpointAudit.Bytes.Basic

/-!
# Base 64

Reading byte strings in base 64. Characters that are no digits are skipped. Padding that fills up a
group of four ends the string; a group that is not filled up makes it invalid.
-/

namespace EndpointAudit.Bytes

def digit64? (c : Char) : Option Nat :=
  let n := c.toNat
  if 0x41 ≤ n && n ≤ 0x5A then some (n - 0x41)
  else if 0x61 ≤ n && n ≤ 0x7A then some (n - 0x61 + 26)
  else if 0x30 ≤ n && n ≤ 0x39 then some (n - 0x30 + 52)
  else if c = '+' then some 62
  else if c = '/' then some 63
  else none

/-- The bytes that the digits of one group make up, if there are at least two. -/
def group64 : (digits : List Nat) → Bytes
  | [a, b] => [UInt8.ofNat (4 * a + b / 16)]
  | [a, b, c] => [UInt8.ofNat (4 * a + b / 16), UInt8.ofNat (16 * b + c / 4)]
  | [a, b, c, d] =>
    [UInt8.ofNat (4 * a + b / 16), UInt8.ofNat (16 * b + c / 4), UInt8.ofNat (64 * c + d)]
  | _ => []

/-- The bytes that characters encode behind the digits of a group that has been begun and the
padding that follows them. -/
def ofBase64From (group : List Nat) (padding : Nat) : List Char → Option Bytes
  | [] => if group.isEmpty then some [] else none
  | c :: rest =>
    if c = '=' then
      if group.length < 2 then ofBase64From group padding rest
      else if 4 ≤ group.length + padding + 1 then some (group64 group)
      else ofBase64From group (padding + 1) rest
    else match digit64? c with
      | none => ofBase64From group padding rest
      | some n =>
        if group.length = 3 then (ofBase64From [] 0 rest).map (group64 (group ++ [n]) ++ ·)
        else ofBase64From (group ++ [n]) 0 rest

def ofBase64 (text : String) : Option Bytes := ofBase64From [] 0 text.toList

end EndpointAudit.Bytes
