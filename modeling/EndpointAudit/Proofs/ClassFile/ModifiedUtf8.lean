import EndpointAudit.Proofs.ClassFile.OnePass

/-!
# Writing modified UTF-8

A text is a sequence of UTF-16 units, and every unit is written on its own in one to three bytes,
surrogates included. The units can be read back from the bytes, and from the units the text.
-/

namespace EndpointAudit.ModifiedUtf8

/-- The bytes of a UTF-16 unit. Zero takes two bytes, so that no byte is ever zero. -/
def encodeUnit (unit : UInt16) : Bytes :=
  let n := unit.toNat
  if n = 0 then [0xC0, 0x80]
  else if n < 0x80 then [UInt8.ofNat n]
  else if n < 0x800 then [UInt8.ofNat (0xC0 + n / 0x40), UInt8.ofNat (0x80 + n % 0x40)]
  else [UInt8.ofNat (0xE0 + n / 0x1000), UInt8.ofNat (0x80 + n / 0x40 % 0x40),
    UInt8.ofNat (0x80 + n % 0x40)]

/-- The bytes of a sequence of UTF-16 units. -/
def encodeUnits (units : List UInt16) : Bytes := units.flatMap encodeUnit

/-- The UTF-16 units of a character: one, or a surrogate pair beyond the basic plane. -/
def unitsOf (c : Char) : List UInt16 :=
  if c.toNat < 0x10000 then [UInt16.ofNat c.toNat]
  else [UInt16.ofNat (0xD800 + (c.toNat - 0x10000) / 0x400),
    UInt16.ofNat (0xDC00 + (c.toNat - 0x10000) % 0x400)]

/-- The bytes of a text. -/
def encode (text : String) : Bytes := encodeUnits (text.toList.flatMap unitsOf)

/-! ## From bytes to units -/

theorem toNat_unit {n : Nat} (h : n < 0x10000) : (UInt16.ofNat n).toNat = n :=
  UInt16.toNat_ofNat_of_lt' h

private theorem nextPoint_encodeUnit (unit : UInt16) (rest : Bytes) :
    nextPoint (encodeUnit unit ++ rest) = some (unit.toNat, rest) := by
  have hlt : unit.toNat < 0x10000 := unit.toNat_lt
  unfold encodeUnit
  generalize unit.toNat = n at hlt ⊢
  simp only
  split
  · next hn =>
    subst hn
    rfl
  · split
    · next hn => exact nextPoint_of_codePoint (codePoint_one hn rest)
    · split
      · next h1 h2 => exact nextPoint_of_codePoint (codePoint_two (by omega) h2 rest)
      · next h1 h2 => exact nextPoint_of_codePoint (codePoint_three (by omega) hlt rest)

/-- Every sequence of units is read back, well-formed or not. -/
theorem points_encodeUnits (units : List UInt16) :
    points (encodeUnits units) = some (units.map (·.toNat)) := by
  induction units with
  | nil => simp [encodeUnits, points]
  | cons unit units ih =>
    have hcons : encodeUnits (unit :: units) = encodeUnit unit ++ encodeUnits units := rfl
    rw [hcons, points_of_nextPoint (nextPoint_encodeUnit unit _), ih]
    rfl

/-! ## From units to characters -/

private theorem joinPairs_unitsOf (c : Char) (rest : List Nat) :
    joinPairs ((unitsOf c).map (·.toNat) ++ rest) = (joinPairs rest).map (c :: ·) := by
  have hvalid : c.toNat < 0xD800 ∨ (0xDFFF < c.toNat ∧ c.toNat < 0x110000) := c.valid
  unfold unitsOf
  split
  · next hn =>
    simp only [List.map_cons, List.map_nil, List.cons_append, List.nil_append, toNat_unit hn]
    rw [joinPairs_cons rest (by simp [isHighSurrogate]; omega)
      (by simp [isLowSurrogate]; omega), Char.ofNat_toNat]
  · next hn =>
    have hh := toNat_unit (show 0xD800 + (c.toNat - 0x10000) / 0x400 < 0x10000 by omega)
    have hl := toNat_unit (show 0xDC00 + (c.toNat - 0x10000) % 0x400 < 0x10000 by omega)
    have hjoin : 0x10000 + (0xD800 + (c.toNat - 0x10000) / 0x400 - 0xD800) * 0x400 +
        (0xDC00 + (c.toNat - 0x10000) % 0x400 - 0xDC00) = c.toNat := by omega
    simp only [List.map_cons, List.map_nil, List.cons_append, List.nil_append, hh, hl, joinPairs]
    rw [if_pos (by simp [isHighSurrogate]; omega), if_pos (by simp [isLowSurrogate]; omega),
      hjoin, Char.ofNat_toNat]

private theorem joinPairs_flatMap_unitsOf (cs : List Char) :
    joinPairs ((cs.flatMap unitsOf).map (·.toNat)) = some cs := by
  induction cs with
  | nil => rfl
  | cons c cs ih => rw [List.flatMap_cons, List.map_append, joinPairs_unitsOf, ih]; rfl

/-- The bytes of units give the text that the units are joined to. -/
theorem decode_encodeUnits_eq (units : List UInt16) : decode (encodeUnits units) =
    (joinPairs (units.map (·.toNat))).map String.ofList := by
  rw [decode_eq_onePass, onePass, points_encodeUnits, Option.bind_some]

/-- Every text is read back from its bytes. -/
theorem decode_encode (text : String) : decode (encode text) = some text := by
  rw [encode, decode_encodeUnits_eq, joinPairs_flatMap_unitsOf, Option.map_some,
    String.ofList_toList]

end EndpointAudit.ModifiedUtf8
