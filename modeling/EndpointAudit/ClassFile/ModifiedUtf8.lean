import EndpointAudit.Bytes.Basic

/-!
# Modified UTF-8

The encoding of texts in class files. It differs from UTF-8 in two points: the zero character is
written in two bytes, and a character beyond the basic plane is written as a surrogate pair, each
half in three bytes. A byte string that is UTF-8 is read as such. Any other is read as UTF-8 in
which surrogates may occur, once the long zeros have been replaced, and goes through UTF-16, where
the surrogates find together.
-/

namespace EndpointAudit.ModifiedUtf8

/-! ## UTF-8 with surrogates -/

/-- The low six bits of a byte that continues a sequence. -/
def continuation (b : UInt8) : Option Nat :=
  if 0x80 ≤ b.toNat && b.toNat ≤ 0xBF then some (b.toNat - 0x80) else none

/-- The number that begins with the given bits and goes on in the next `count` bytes, and what
follows it. -/
def continued : (count bits : Nat) → Bytes → Option (Nat × Bytes)
  | 0, bits, rest => some (bits, rest)
  | _ + 1, _, [] => none
  | count + 1, bits, b :: rest =>
    match continuation b with
    | some y => continued count (bits * 0x40 + y) rest
    | none => none

/-- A code point of several bytes. It is refused if it could be written in less of them. -/
def longPoint (count bits least : Nat) (bytes : Bytes) : Option (Nat × Bytes) :=
  match continued count bits bytes with
  | some (n, rest) => if least ≤ n && n ≤ 0x10FFFF then some (n, rest) else none
  | none => none

/-- The code point at the front of a byte string, which may be a surrogate, and what follows it. -/
def codePoint : Bytes → Option (Nat × Bytes)
  | [] => none
  | a :: rest =>
    let n := a.toNat
    if n < 0x80 then some (n, rest)
    else if n < 0xC0 then none
    else if n < 0xE0 then longPoint 1 (n - 0xC0) 0x80 rest
    else if n < 0xF0 then longPoint 2 (n - 0xE0) 0x800 rest
    else if n < 0xF5 then longPoint 3 (n - 0xF0) 0x10000 rest
    else none

theorem continued_length {count bits n : Nat} {bytes rest : Bytes}
    (h : continued count bits bytes = some (n, rest)) : rest.length ≤ bytes.length := by
  fun_induction continued count bits bytes with
  | case1 => cases h; exact Nat.le_refl _
  | case2 => cases h
  | case3 count bits b rest y hb ih => exact Nat.le_succ_of_le (ih h)
  | case4 => cases h

theorem longPoint_length {count bits least n : Nat} {bytes rest : Bytes}
    (h : longPoint count bits least bytes = some (n, rest)) : rest.length ≤ bytes.length := by
  unfold longPoint at h
  split at h
  · next hcontinued =>
    split at h
    · cases h
      exact continued_length hcontinued
    · cases h
  · cases h

theorem codePoint_length {bytes rest : Bytes} {n : Nat} (h : codePoint bytes = some (n, rest)) :
    rest.length < bytes.length := by
  cases bytes with
  | nil => cases h
  | cons a bytes =>
    apply Nat.lt_succ_of_le
    simp only [codePoint] at h
    split at h
    · cases h
      exact Nat.le_refl _
    · repeat' split at h
      all_goals first | cases h | exact longPoint_length h

def codePoints (bytes : Bytes) : Option (List Nat) :=
  match bytes with
  | [] => some []
  | b :: bs =>
    match _h : codePoint (b :: bs) with
    | none => none
    | some (n, rest) => (codePoints rest).map (n :: ·)
termination_by bytes.length
decreasing_by exact codePoint_length (by assumption)

/-! ## UTF-16 -/

def isHighSurrogate (n : Nat) : Bool := 0xD800 ≤ n && n ≤ 0xDBFF

def isLowSurrogate (n : Nat) : Bool := 0xDC00 ≤ n && n ≤ 0xDFFF

/-- The characters of a list of units, surrogate pairs joined. A surrogate outside a pair is
refused. -/
def joinPairs : List Nat → Option (List Char)
  | [] => some []
  | [n] =>
    if isHighSurrogate n || isLowSurrogate n then none else some [Char.ofNat n]
  | n :: m :: rest =>
    if isHighSurrogate n then
      if isLowSurrogate m then
        (joinPairs rest).map (Char.ofNat (0x10000 + (n - 0xD800) * 0x400 + (m - 0xDC00)) :: ·)
      else none
    else if isLowSurrogate n then none
    else (joinPairs (m :: rest)).map (Char.ofNat n :: ·)

namespace Utf16

/-- The units of a code point: a surrogate pair beyond the basic plane. -/
def units (n : Nat) : List Nat :=
  if n < 0x10000 then [n]
  else [0xD800 + (n - 0x10000) / 0x400, 0xDC00 + (n - 0x10000) % 0x400]

/-- The bytes of a unit, the low one first. -/
def unitBytes (unit : Nat) : Bytes := [UInt8.ofNat (unit % 0x100), UInt8.ofNat (unit / 0x100)]

/-- The unit in front of a text, which tells the order of the bytes. -/
def mark : Nat := 0xFEFF

def write (points : List Nat) : Bytes := (mark :: points.flatMap units).flatMap unitBytes

def readUnits : Bytes → Option (List Nat)
  | [] => some []
  | [_] => none
  | low :: high :: rest => (readUnits rest).map ((low.toNat + high.toNat * 0x100) :: ·)

/-- The characters in bytes whose low ones come first. A mark in front is taken off. -/
def read (bytes : Bytes) : Option (List Char) :=
  (readUnits bytes).bind fun units =>
    joinPairs (if units.head? = some mark then units.tail else units)

end Utf16

/-! ## Reading -/

/-- The byte string with one zero byte for each zero written in two. -/
def shortenZeros : Bytes → Bytes
  | [] => []
  | [b] => [b]
  | a :: b :: rest =>
    if a = 0xC0 ∧ b = 0x80 then 0 :: shortenZeros rest else a :: shortenZeros (b :: rest)

/-- The text of a byte string, or `none` if it is no modified UTF-8. -/
def decode (bytes : Bytes) : Option String :=
  match Bytes.text? bytes with
  | some text => some text
  | none => do
    let points ← codePoints (shortenZeros bytes)
    let chars ← Utf16.read (Utf16.write points)
    return String.ofList chars

end EndpointAudit.ModifiedUtf8
