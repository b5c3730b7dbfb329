import EndpointAudit.Proofs.Bytes.Utf8
import EndpointAudit.Proofs.ClassFile.ModifiedUtf8
import Mathlib.Data.List.Chain
import Mathlib.Tactic.MkIffOfInductiveProp

/-!
# Sequences of UTF-16 units

A class file can hold any sequence of units, also one in which halves of surrogate pairs stand
alone. Such a sequence denotes no text, and its bytes are refused; the bytes of any other sequence
give the one text that it denotes. What is plain UTF-8 is read as such.
-/

namespace EndpointAudit.ModifiedUtf8

/-- The UTF-16 units of a text. -/
def utf16 (text : String) : List UInt16 := text.toList.flatMap unitsOf

/-- No half of a surrogate pair stands alone: a second half comes neither first nor anywhere but
behind a first half, which comes neither last nor anywhere but in front of a second half. -/
@[mk_iff]
structure WellFormed (units : List UInt16) : Prop where
  start : ∀ unit ∈ units.head?, isLowSurrogate unit.toNat = false
  stop : ∀ unit ∈ units.getLast?, isHighSurrogate unit.toNat = false
  pairs : units.IsChain fun a b => isHighSurrogate a.toNat = isLowSurrogate b.toNat

-- Each bound names one unit at most, which is looked at; no other unit is tried.
instance (units : List UInt16) : Decidable (WellFormed units) :=
  letI (o : Option UInt16) (p : UInt16 → Bool) : Decidable (∀ unit ∈ o, p unit = false) :=
    Option.decidableForallMem o
  decidable_of_iff' _ (wellFormed_iff units)

theorem isLowSurrogate_of_high {n : Nat} (h : isHighSurrogate n = true) :
    isLowSurrogate n = false := by
  simp only [isHighSurrogate, Bool.and_eq_true, decide_eq_true_eq] at h
  simp only [isLowSurrogate, Bool.and_eq_false_iff, decide_eq_false_iff_not]
  omega

theorem wellFormed_nil : WellFormed [] := ⟨by simp, by simp, .nil⟩

private theorem wellFormed_plain {unit : UInt16} {units : List UInt16}
    (hh : isHighSurrogate unit.toNat = false) (hl : isLowSurrogate unit.toNat = false) :
    WellFormed (unit :: units) ↔ WellFormed units := by
  cases units with
  | nil => exact ⟨fun _ => wellFormed_nil, fun _ => ⟨by simpa, by simpa, .singleton _⟩⟩
  | cons next rest =>
    constructor
    · rintro ⟨-, hstop, hpairs⟩
      obtain ⟨hnext, hrest⟩ := List.isChain_cons_cons.mp hpairs
      exact ⟨by simpa [hh] using hnext.symm, by simpa using hstop, hrest⟩
    · rintro ⟨hstart, hstop, hpairs⟩
      have hnext : isLowSurrogate next.toNat = false := hstart next rfl
      exact ⟨by simpa, by simpa using hstop,
        List.isChain_cons_cons.mpr ⟨by rw [hh, hnext], hpairs⟩⟩

private theorem wellFormed_pair {high low : UInt16} {units : List UInt16}
    (hh : isHighSurrogate high.toNat = true) (hl : isLowSurrogate low.toNat = true) :
    WellFormed (high :: low :: units) ↔ WellFormed units := by
  have hhl := isLowSurrogate_of_high hh
  have hlh : isHighSurrogate low.toNat = false := by
    by_contra h
    rw [isLowSurrogate_of_high (by simpa using h)] at hl
    contradiction
  -- Behind the pair, the sequence may go on as it may begin.
  cases units with
  | nil =>
    refine ⟨fun _ => wellFormed_nil, fun _ => ⟨by simpa, by simpa, ?_⟩⟩
    exact List.isChain_cons_cons.mpr ⟨by rw [hh, hl], .singleton _⟩
  | cons next rest =>
    constructor
    · rintro ⟨-, hstop, hpairs⟩
      obtain ⟨hnext, hrest⟩ := List.isChain_cons_cons.mp (List.isChain_cons_cons.mp hpairs).2
      exact ⟨by simpa [hlh] using hnext.symm, by simpa using hstop, hrest⟩
    · rintro ⟨hstart, hstop, hpairs⟩
      have hnext : isLowSurrogate next.toNat = false := hstart next rfl
      refine ⟨by simpa, by simpa using hstop, List.isChain_cons_cons.mpr ⟨by rw [hh, hl], ?_⟩⟩
      exact List.isChain_cons_cons.mpr ⟨by rw [hlh, hnext], hpairs⟩

private theorem not_wellFormed_low {unit : UInt16} (units : List UInt16)
    (hl : isLowSurrogate unit.toNat = true) : ¬ WellFormed (unit :: units) := by
  intro h
  have hstart := h.start unit rfl
  rw [hl] at hstart
  exact absurd hstart (by decide)

private theorem not_wellFormed_high {unit : UInt16} {units : List UInt16}
    (hh : isHighSurrogate unit.toNat = true)
    (hnext : ∀ next ∈ units.head?, isLowSurrogate next.toNat = false) :
    ¬ WellFormed (unit :: units) := by
  intro h
  cases units with
  | nil =>
    have hstop := h.stop unit rfl
    rw [hh] at hstop
    exact absurd hstop (by decide)
  | cons next rest =>
    have hpair := (List.isChain_cons_cons.mp h.pairs).1
    rw [hh, hnext next rfl] at hpair
    exact absurd hpair (by decide)

/-! ## Joining units -/

theorem toNat_ofNat {n : Nat} (h : n.isValidChar) : (Char.ofNat n).toNat = n := by
  rw [Char.ofNat, dif_pos h]
  rfl

private theorem unitsOf_plain {unit : UInt16} (hh : isHighSurrogate unit.toNat = false)
    (hl : isLowSurrogate unit.toNat = false) : unitsOf (Char.ofNat unit.toNat) = [unit] := by
  have hlt : unit.toNat < 0x10000 := unit.toNat_lt
  simp only [isHighSurrogate, isLowSurrogate, Bool.and_eq_false_iff, decide_eq_false_iff_not]
    at hh hl
  have hvalid : Nat.isValidChar unit.toNat := by
    show unit.toNat < 0xD800 ∨ (0xDFFF < unit.toNat ∧ unit.toNat < 0x110000)
    omega
  rw [unitsOf, toNat_ofNat hvalid, if_pos hlt, UInt16.ofNat_toNat]

private theorem unitsOf_pair {high low : UInt16} (hh : isHighSurrogate high.toNat = true)
    (hl : isLowSurrogate low.toNat = true) :
    unitsOf (Char.ofNat (0x10000 + (high.toNat - 0xD800) * 0x400 + (low.toNat - 0xDC00))) =
      [high, low] := by
  simp only [isHighSurrogate, isLowSurrogate, Bool.and_eq_true, decide_eq_true_eq] at hh hl
  obtain ⟨h, hhigh⟩ : ∃ h, high.toNat = 0xD800 + h := ⟨high.toNat - 0xD800, by omega⟩
  obtain ⟨l, hlow⟩ : ∃ l, low.toNat = 0xDC00 + l := ⟨low.toNat - 0xDC00, by omega⟩
  have hvalid : Nat.isValidChar (0x10000 + h * 0x400 + l) := by
    show _ < 0xD800 ∨ (0xDFFF < _ ∧ _ < 0x110000)
    omega
  have hhigh' : 0xD800 + (0x10000 + h * 0x400 + l - 0x10000) / 0x400 = high.toNat := by omega
  have hlow' : 0xDC00 + (0x10000 + h * 0x400 + l - 0x10000) % 0x400 = low.toNat := by omega
  rw [hhigh, hlow, Nat.add_sub_cancel_left, Nat.add_sub_cancel_left, unitsOf,
    toNat_ofNat hvalid, if_neg (by omega), hhigh', hlow', UInt16.ofNat_toNat, UInt16.ofNat_toNat]

/-- Units are joined to the characters whose units they are, if no surrogate stands alone. -/
theorem joinPairs_outcome (units : List UInt16) :
    (∃ cs, joinPairs (units.map (·.toNat)) = some cs ∧ cs.flatMap unitsOf = units ∧
      WellFormed units) ∨
    (joinPairs (units.map (·.toNat)) = none ∧ ¬ WellFormed units) := by
  induction hlength : units.length using Nat.strong_induction_on generalizing units with
  | h length ih =>
    subst hlength
    cases units with
    | nil => exact .inl ⟨[], rfl, rfl, wellFormed_nil⟩
    | cons unit units =>
      cases hh : isHighSurrogate unit.toNat with
      | false =>
        cases hl : isLowSurrogate unit.toNat with
        | true => exact .inr ⟨joinPairs_low _ hh hl, not_wellFormed_low _ hl⟩
        | false =>
          rw [List.map_cons, joinPairs_cons _ hh hl, wellFormed_plain hh hl]
          obtain ⟨cs, hjoin, hunits, hwell⟩ | ⟨hjoin, hwell⟩ := ih units.length (by simp) units rfl
          · refine .inl ⟨_, by rw [hjoin]; rfl, ?_, hwell⟩
            rw [List.flatMap_cons, unitsOf_plain hh hl, hunits]
            rfl
          · exact .inr ⟨by rw [hjoin]; rfl, hwell⟩
      | true =>
        by_cases hnext : ∃ low rest, units = low :: rest ∧ isLowSurrogate low.toNat = true
        · obtain ⟨low, rest, rfl, hl⟩ := hnext
          rw [List.map_cons, List.map_cons, joinPairs, if_pos hh, if_pos hl, wellFormed_pair hh hl]
          have hlength : rest.length < (unit :: low :: rest).length := by
            rw [List.length_cons, List.length_cons]
            omega
          obtain ⟨cs, hjoin, hunits, hwell⟩ | ⟨hjoin, hwell⟩ := ih rest.length hlength rest rfl
          · refine .inl ⟨_, by rw [hjoin]; rfl, ?_, hwell⟩
            rw [List.flatMap_cons, unitsOf_pair hh hl, hunits]
            rfl
          · exact .inr ⟨by rw [hjoin]; rfl, hwell⟩
        · have hlone : ∀ next ∈ units.head?, isLowSurrogate next.toNat = false := by
            intro next hmem
            obtain ⟨rest, rfl⟩ := List.head?_eq_some_iff.mp hmem
            by_contra hl
            exact hnext ⟨next, rest, rfl, by simpa using hl⟩
          refine .inr ⟨joinPairs_high hh ?_, not_wellFormed_high hh hlone⟩
          intro m hmem
          rw [List.head?_map] at hmem
          obtain ⟨next, hnext', rfl⟩ := Option.map_eq_some_iff.mp hmem
          exact hlone next hnext'

/-! ## Decoding the bytes of units -/

/-- The bytes of a sequence of units give the text it denotes, and are refused if it denotes none.
If they are plain UTF-8 as well, they give the same text as such. -/
theorem decode_encodeUnits (units : List UInt16) :
    (∀ text, decode (encodeUnits units) = some text ↔ utf16 text = units) ∧
    (decode (encodeUnits units) = none ↔ ¬ WellFormed units) ∧
    ∀ text, Bytes.text? (encodeUnits units) = some text → utf16 text = units := by
  have htext : ∀ text, decode (encodeUnits units) = some text ↔ utf16 text = units := by
    intro text
    constructor
    · intro h
      rw [decode_encodeUnits_eq, Option.map_eq_some_iff] at h
      obtain ⟨cs, hjoin, rfl⟩ := h
      obtain ⟨cs', hjoin', hunits, -⟩ | ⟨hjoin', -⟩ := joinPairs_outcome units
      · rw [hjoin, Option.some.injEq] at hjoin'
        rw [utf16, String.toList_ofList, hjoin', hunits]
      · rw [hjoin] at hjoin'
        contradiction
    · rintro rfl
      exact decode_encode text
  refine ⟨htext, ?_, ?_⟩
  · rw [decode_encodeUnits_eq]
    obtain ⟨cs, hjoin, -, hwell⟩ | ⟨hjoin, hwell⟩ := joinPairs_outcome units
    · simp [hjoin, hwell]
    · simp [hjoin, hwell]
  · intro text hplain
    rw [← htext, decode_eq_onePass, Bytes.text?_eq_some_iff.mp hplain]
    exact onePass_ofText text

/-- A zero, a letter and a character beyond the basic plane; and a pair turned round. -/
theorem decode_encodeUnits_mixed :
    decode (encodeUnits [.ofNat 0x0000, .ofNat 0x0041, .ofNat 0xD83D, .ofNat 0xDE00]) =
        some (String.ofList [Char.ofNat 0, 'A', Char.ofNat 0x1F600]) ∧
      decode (encodeUnits [.ofNat 0x0041, .ofNat 0xDE00, .ofNat 0xD83D]) = none := by
  constructor
  · apply ((decode_encodeUnits _).1 _).mpr
    rw [utf16, String.toList_ofList]
    decide
  · apply (decode_encodeUnits _).2.1.mpr
    decide

end EndpointAudit.ModifiedUtf8
