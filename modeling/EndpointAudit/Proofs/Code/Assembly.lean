import EndpointAudit.Code.Instruction
import EndpointAudit.Proofs.ClassFile.Reads

/-!
# Instructions are listed as they were assembled

How many operand bytes an instruction has follows from its opcode, for a widened instruction also
from its first operand, and for the switches from their offset and from the numbers in front of
their tables. Well-formed instructions that are assembled one behind the other are listed again,
and every listing accounts for all bytes up to the first place where no instruction stands.
-/

namespace EndpointAudit

namespace Bytes

/-- The four bytes of a signed number. -/
def ofInt32 (n : Int32) : Bytes := ofUInt32 n.toUInt32

@[simp] theorem length_ofInt32 (n : Int32) : (ofInt32 n).length = 4 := length_ofNatBE 4 _

end Bytes

namespace Code

open Bytes

/-! ## Well-formed instructions -/

/-- The opcodes, as ranges, that always have `n` operand bytes. -/
def fixedRanges : (n : Nat) → List (Nat × Nat)
  | 0 => [(0x00, 0x0F), (0x1A, 0x35), (0x3B, 0x83), (0x85, 0x98), (0xAC, 0xB1), (0xBE, 0xBF),
      (0xC2, 0xC3), (0xCA, 0xCA), (0xFE, 0xFF)]
  | 1 => [(0x10, 0x10), (0x12, 0x12), (0x15, 0x19), (0x36, 0x3A), (0xA9, 0xA9), (0xBC, 0xBC)]
  | 2 => [(0x11, 0x11), (0x13, 0x14), (0x84, 0x84), (0x99, 0xA8), (0xB2, 0xB8), (0xBB, 0xBB),
      (0xBD, 0xBD), (0xC0, 0xC1), (0xC6, 0xC7)]
  | 3 => [(0xC5, 0xC5)]
  | 4 => [(0xB9, 0xBA), (0xC8, 0xC9)]
  | _ => []

def IsFixed (opcode : UInt8) (n : Nat) : Prop :=
  ∃ range ∈ fixedRanges n, range.1 ≤ opcode.toNat ∧ opcode.toNat ≤ range.2

instance (opcode : UInt8) (n : Nat) : Decidable (IsFixed opcode n) :=
  inferInstanceAs (Decidable (∃ range ∈ fixedRanges n, _))

/-- The bytes that bring what follows a switch at `offset` to a multiple of four. -/
def IsPadding (offset : Nat) (pad : Bytes) : Prop :=
  pad.length < 4 ∧ (offset + 1 + pad.length) % 4 = 0

/-- The instructions, each with the operands that its opcode asks for at its offset. -/
inductive WellFormed : Instruction → Prop
  | fixed {offset : Nat} {opcode : UInt8} {operands : Bytes}
      (size : IsFixed opcode operands.length) : WellFormed ⟨offset, opcode, operands⟩
  | wideIncrement {offset : Nat} {operands : Bytes} (size : operands.length = 4) :
      WellFormed ⟨offset, 0xC4, 0x84 :: operands⟩
  | wideAccess {offset : Nat} {widened : UInt8} {slot : Bytes} (access : widened ≠ 0x84)
      (size : slot.length = 2) : WellFormed ⟨offset, 0xC4, widened :: slot⟩
  | tableSwitch {offset : Nat} {pad targets : Bytes} {default low high : Int32}
      (padding : IsPadding offset pad) (range : low.toInt ≤ high.toInt)
      (size : targets.length = 4 * (high.toInt - low.toInt + 1).toNat) :
      WellFormed ⟨offset, 0xAA,
        pad ++ ofInt32 default ++ ofInt32 low ++ ofInt32 high ++ targets⟩
  | lookupSwitch {offset : Nat} {pad table : Bytes} {default pairs : Int32}
      (padding : IsPadding offset pad) (count : 0 ≤ pairs.toInt)
      (size : table.length = 8 * pairs.toInt.toNat) :
      WellFormed ⟨offset, 0xAB, pad ++ ofInt32 default ++ ofInt32 pairs ++ table⟩

theorem isPadding_iff {offset : Nat} {pad : Bytes} :
    IsPadding offset pad ↔ pad.length = padding offset := by
  rw [IsPadding, padding]
  omega

/-! ## Operands of fixed size -/

/-- The opcodes whose operands depend on more than the opcode: the switches and the prefix that
widens. -/
def variableOpcodes : List UInt8 := [0xAA, 0xAB, 0xC4]

private theorem fixedOperands_of_range : ∀ n : Fin 5, ∀ range ∈ fixedRanges n,
    ∀ k : Fin (range.2 - range.1 + 1), UInt8.ofNat (range.1 + k) ∉ variableOpcodes ∧
      fixedOperands (UInt8.ofNat (range.1 + k)) = some n.val := by
  decide +kernel

private theorem isFixed_of_fixedOperands : ∀ op : Fin 256, UInt8.ofFin op ∉ variableOpcodes →
    ∀ n ∈ fixedOperands (UInt8.ofFin op), IsFixed (UInt8.ofFin op) n := by
  decide +kernel

theorem isFixed_iff {opcode : UInt8} {n : Nat} :
    IsFixed opcode n ↔ opcode ∉ variableOpcodes ∧ fixedOperands opcode = some n := by
  constructor
  · intro h
    obtain ⟨range, hmem, hlow, hhigh⟩ := h
    have hn : n < 5 := by
      by_contra hge
      rw [fixedRanges] at hmem
      · simp at hmem
      all_goals omega
    have hrange := fixedOperands_of_range ⟨n, hn⟩ range hmem ⟨opcode.toNat - range.1, by omega⟩
    simpa [Nat.add_sub_cancel' hlow] using hrange
  · intro h
    exact isFixed_of_fixedOperands opcode.toFin h.1 n h.2

/-! ## Signed numbers -/

theorem signed32_append (n : Int32) (rest : Bytes) :
    signed32 (ofInt32 n ++ rest) = some n.toInt := by
  have htake : (ofInt32 n ++ rest).take 4 = ofInt32 n := List.take_left' (length_ofInt32 n)
  have hnat : toNatBE (ofInt32 n) = n.toUInt32.toNat := by
    rw [ofInt32, ofUInt32, toNatBE_ofNatBE]
    exact Nat.mod_eq_of_lt n.toUInt32.toNat_lt
  have hint : n.toInt = n.toUInt32.toBitVec.toInt := rfl
  simp only [signed32, htake, length_ofInt32, if_true, hnat, Option.some.injEq]
  rw [hint, BitVec.toInt_eq_toNat_cond]
  change (if n.toUInt32.toNat < _ then (n.toUInt32.toNat : Int) else _) =
    (if 2 * n.toUInt32.toNat < _ then (n.toUInt32.toNat : Int) else (n.toUInt32.toNat : Int) - _)
  split_ifs <;> omega

theorem exists_of_signed32 {bytes : Bytes} {value : Int} (h : signed32 bytes = some value) :
    ∃ n : Int32, value = n.toInt ∧ bytes = ofInt32 n ++ bytes.drop 4 := by
  have hlen : (bytes.take 4).length = 4 := by
    by_contra hshort
    simp only [signed32, if_neg hshort] at h
    cases h
  let word := bytes.take 4
  have hlt : toNatBE word < 2 ^ 32 := by
    have hbound := toNatBE_lt word
    rwa [hlen] at hbound
  have hword : bytes = ofInt32 (UInt32.ofNat (toNatBE word)).toInt32 ++ bytes.drop 4 := by
    have hbytes : ofNatBE 4 (toNatBE word) = word := by
      rw [← hlen]
      exact ofNatBE_toNatBE word
    rw [ofInt32, ofUInt32, UInt32.toUInt32_toInt32, UInt32.toNat_ofNat_of_lt' hlt, hbytes]
    exact (List.take_append_drop 4 bytes).symm
  rw [hword, signed32_append] at h
  exact ⟨_, (Option.some.inj h).symm, hword⟩

/-! ## Switches -/

theorem tableOperands_append {offset : Nat} {pad : Bytes} (hpad : IsPadding offset pad)
    (opcode : UInt8) (default low high : Int32) (rest : Bytes) :
    tableOperands offset opcode
        (pad ++ ofInt32 default ++ ofInt32 low ++ ofInt32 high ++ rest) =
      if high.toInt < low.toInt then .error (.tableBounds offset)
      else .ok (pad.length + 12 + (high.toInt - low.toInt + 1).toNat * 4) := by
  have hbody : (pad ++ ofInt32 default ++ ofInt32 low ++ ofInt32 high ++ rest).drop
      (padding offset) = ofInt32 default ++ (ofInt32 low ++ (ofInt32 high ++ rest)) := by
    rw [← isPadding_iff.mp hpad]
    simp
  have hlow : (ofInt32 default ++ (ofInt32 low ++ (ofInt32 high ++ rest))).drop 4 =
      ofInt32 low ++ (ofInt32 high ++ rest) := List.drop_left' (length_ofInt32 default)
  have hhigh : (ofInt32 default ++ (ofInt32 low ++ (ofInt32 high ++ rest))).drop 8 =
      ofInt32 high ++ rest := by
    rw [← List.append_assoc]
    exact List.drop_left' (by simp)
  simp only [tableOperands, hbody, hlow, hhigh, signed32_append, isPadding_iff.mp hpad]

theorem lookupOperands_append {offset : Nat} {pad : Bytes} (hpad : IsPadding offset pad)
    (opcode : UInt8) (default pairs : Int32) (rest : Bytes) :
    lookupOperands offset opcode (pad ++ ofInt32 default ++ ofInt32 pairs ++ rest) =
      if pairs.toInt < 0 then .error (.pairCount offset)
      else .ok (pad.length + 8 + pairs.toInt.toNat * 8) := by
  have hbody : (pad ++ ofInt32 default ++ ofInt32 pairs ++ rest).drop (padding offset) =
      ofInt32 default ++ (ofInt32 pairs ++ rest) := by
    rw [← isPadding_iff.mp hpad]
    simp
  have hpairs : (ofInt32 default ++ (ofInt32 pairs ++ rest)).drop 4 = ofInt32 pairs ++ rest :=
    List.drop_left' (length_ofInt32 default)
  simp only [lookupOperands, hbody, hpairs, signed32_append, isPadding_iff.mp hpad]

theorem exists_padding {offset : Nat} {tail rest : Bytes} {n : Int32}
    (h : tail.drop (padding offset) = ofInt32 n ++ rest) :
    ∃ pad, IsPadding offset pad ∧ tail = pad ++ (ofInt32 n ++ rest) := by
  have hlen := congrArg List.length h
  rw [List.length_drop, List.length_append, length_ofInt32] at hlen
  refine ⟨tail.take (padding offset), ?_, ?_⟩
  · rw [isPadding_iff, List.length_take]
    omega
  · rw [← h, List.take_append_drop]

private theorem exists_of_tableOperands {offset n : Nat} {opcode : UInt8} {tail : Bytes}
    (h : tableOperands offset opcode tail = .ok n) :
    ∃ (pad rest : Bytes) (default low high : Int32), IsPadding offset pad ∧
      tail = pad ++ ofInt32 default ++ ofInt32 low ++ ofInt32 high ++ rest := by
  simp only [tableOperands] at h
  split at h
  · next hdefault hlow hhigh =>
    generalize hbody : tail.drop (padding offset) = body at hdefault hlow hhigh
    obtain ⟨default, -, hfirst⟩ := exists_of_signed32 hdefault
    obtain ⟨low, -, hsecond⟩ := exists_of_signed32 hlow
    obtain ⟨high, -, hthird⟩ := exists_of_signed32 hhigh
    rw [List.drop_drop] at hsecond
    rw [hfirst, hsecond, hthird] at hbody
    obtain ⟨pad, hpad, htail⟩ := exists_padding hbody
    exact ⟨pad, _, default, low, high, hpad, by simpa using htail⟩
  · cases h

private theorem exists_of_lookupOperands {offset n : Nat} {opcode : UInt8} {tail : Bytes}
    (h : lookupOperands offset opcode tail = .ok n) :
    ∃ (pad rest : Bytes) (default pairs : Int32), IsPadding offset pad ∧
      tail = pad ++ ofInt32 default ++ ofInt32 pairs ++ rest := by
  simp only [lookupOperands] at h
  split at h
  · next hdefault hpairs =>
    obtain ⟨default, -, hbody⟩ := exists_of_signed32 hdefault
    obtain ⟨pairs, -, hrest⟩ := exists_of_signed32 hpairs
    rw [hrest] at hbody
    obtain ⟨pad, hpad, htail⟩ := exists_padding hbody
    exact ⟨pad, _, default, pairs, hpad, by simpa using htail⟩
  · cases h

/-! ## One instruction -/

def Instruction.bytes (i : Instruction) : Bytes := i.opcode :: i.operands

private theorem operandCount_append {i : Instruction} (h : WellFormed i) (rest : Bytes) :
    operandCount i.offset i.opcode (i.operands ++ rest) = .ok i.operands.length := by
  cases h with
  | @fixed offset opcode operands size =>
    obtain ⟨hfixed, hcount⟩ := isFixed_iff.mp size
    simp only [variableOpcodes, List.mem_cons, List.not_mem_nil, or_false, not_or] at hfixed
    simp only [operandCount, if_neg hfixed.1, if_neg hfixed.2.1, if_neg hfixed.2.2, hcount]
  | wideIncrement size => simp [operandCount, size]
  | wideAccess access size => simp [operandCount, access, size]
  | @tableSwitch offset pad targets default low high hpad range size =>
    have hcount := tableOperands_append hpad 0xAA default low high (targets ++ rest)
    rw [if_neg (Int.not_lt.mpr range), ← List.append_assoc] at hcount
    refine hcount.trans ?_
    simp only [List.length_append, length_ofInt32, size, Except.ok.injEq]
    omega
  | @lookupSwitch offset pad table default pairs hpad count size =>
    have hcount := lookupOperands_append hpad 0xAB default pairs (table ++ rest)
    rw [if_neg (Int.not_lt.mpr count), ← List.append_assoc] at hcount
    refine hcount.trans ?_
    simp only [List.length_append, length_ofInt32, size, Except.ok.injEq]
    omega

private theorem wellFormed_of_tableOperands {offset n : Nat} {tail : Bytes}
    (h : tableOperands offset 0xAA tail = .ok n) (hlen : (tail.take n).length = n) :
    WellFormed ⟨offset, 0xAA, tail.take n⟩ := by
  obtain ⟨pad, rest, default, low, high, hpad, rfl⟩ := exists_of_tableOperands h
  rw [tableOperands_append hpad] at h
  split at h
  · cases h
  · next hrange =>
    cases h
    have hheader : (pad ++ ofInt32 default ++ ofInt32 low ++ ofInt32 high).length =
        pad.length + 12 := by simp
    rw [← hheader, List.take_length_add_append] at hlen ⊢
    refine .tableSwitch hpad (Int.not_lt.mp hrange) ?_
    rw [List.length_append] at hlen
    omega

private theorem wellFormed_of_lookupOperands {offset n : Nat} {tail : Bytes}
    (h : lookupOperands offset 0xAB tail = .ok n) (hlen : (tail.take n).length = n) :
    WellFormed ⟨offset, 0xAB, tail.take n⟩ := by
  obtain ⟨pad, rest, default, pairs, hpad, rfl⟩ := exists_of_lookupOperands h
  rw [lookupOperands_append hpad] at h
  split at h
  · cases h
  · next hcount =>
    cases h
    have hheader : (pad ++ ofInt32 default ++ ofInt32 pairs).length = pad.length + 8 := by simp
    rw [← hheader, List.take_length_add_append] at hlen ⊢
    refine .lookupSwitch hpad (Int.not_lt.mp hcount) ?_
    rw [List.length_append] at hlen
    omega

/-- The operands that are counted make a well-formed instruction, if there are as many. -/
theorem wellFormed_of_operandCount {offset n : Nat} {opcode : UInt8} {tail : Bytes}
    (h : operandCount offset opcode tail = .ok n) (hlen : (tail.take n).length = n) :
    WellFormed ⟨offset, opcode, tail.take n⟩ := by
  by_cases htable : opcode = 0xAA
  · subst htable
    exact wellFormed_of_tableOperands h hlen
  by_cases hlookup : opcode = 0xAB
  · subst hlookup
    exact wellFormed_of_lookupOperands h hlen
  by_cases hwide : opcode = 0xC4
  · subst hwide
    cases tail with
    | nil => cases h
    | cons widened tail =>
      by_cases hincrement : widened = 0x84
      · subst hincrement
        cases h
        exact .wideIncrement (by simpa using hlen)
      · have hn : n = 3 := by simpa [operandCount, hincrement] using h.symm
        subst hn
        exact .wideAccess hincrement (by simpa using hlen)
  · have hfixed : opcode ∉ variableOpcodes := by simp [variableOpcodes, htable, hlookup, hwide]
    simp only [operandCount, if_neg htable, if_neg hlookup, if_neg hwide] at h
    cases hcount : fixedOperands opcode with
    | none =>
      rw [hcount] at h
      cases h
    | some m =>
      rw [hcount] at h
      cases h
      exact .fixed (isFixed_iff.mpr ⟨hfixed, by rw [hcount, hlen]⟩)

/-! ## Faults -/

/-- The offset at which the code cannot be read. -/
def Fault.offset : Fault → Nat
  | .unknown _ offset | .tableBounds offset | .pairCount offset | .pastEnd offset => offset

/-- A message that says at which offset something is wrong. -/
def NamesOffset (message : String) (offset : Nat) : Prop :=
  ∃ before behind, message = before ++ " at " ++ toString offset ++ behind ∧
    (behind = "" ∨ Text.startsWith behind " " = true)

theorem namesOffset_append {opening behind : String} (before : String) (offset : Nat)
    (hopening : opening = before ++ " at ") (hbehind : Text.startsWith behind " " = true) :
    NamesOffset (opening ++ toString offset ++ behind) offset := by
  subst hopening
  exact ⟨before, behind, rfl, .inr hbehind⟩

private theorem Fault.namesOffset (fault : Fault) : NamesOffset fault.message fault.offset := by
  cases fault with
  | unknown opcode offset =>
    refine ⟨"cannot decode opcode 0x" ++ String.ofList (Text.hex 2 opcode.toNat), "", ?_, .inl rfl⟩
    exact String.append_empty.symm
  | tableBounds offset => exact namesOffset_append "tableswitch" offset (by decide) (by decide)
  | pairCount offset => exact namesOffset_append "lookupswitch" offset (by decide) (by decide)
  | pastEnd offset => exact namesOffset_append "instruction" offset (by decide) (by decide)

private theorem offset_of_operandCount {offset : Nat} {opcode : UInt8} {tail : Bytes}
    {fault : Fault}
    (h : operandCount offset opcode tail = .error fault) : fault.offset = offset := by
  unfold operandCount tableOperands lookupOperands at h
  grind [Fault.offset]

/-! ## Whole code -/

def assemble (is : List Instruction) : Bytes := is.flatMap Instruction.bytes

/-- Well-formed instructions one behind the other, the first of them at `offset`. -/
inductive Placed : Nat → List Instruction → Prop
  | nil {offset : Nat} : Placed offset []
  | cons {i : Instruction} {is : List Instruction} (first : WellFormed i)
      (rest : Placed (i.offset + 1 + i.operands.length) is) : Placed i.offset (i :: is)

theorem listFrom_append {i : Instruction} (h : WellFormed i) (rest : Bytes) :
    listFrom i.offset (i.bytes ++ rest) =
      { listFrom (i.offset + 1 + i.operands.length) rest with
        instructions := i :: (listFrom (i.offset + 1 + i.operands.length) rest).instructions } := by
  rw [Instruction.bytes, List.cons_append, listFrom, operandCount_append h]
  simp

/-- At the front of code stands a well-formed instruction, or the listing ends there. -/
theorem wellFormed_or_fault (offset : Nat) {code : Bytes} (hcode : code ≠ []) :
    (∃ i rest, WellFormed i ∧ i.offset = offset ∧ code = i.bytes ++ rest) ∨
      ∃ fault : Fault, fault.offset = offset ∧ listFrom offset code = ⟨[], some fault⟩ := by
  obtain ⟨opcode, tail, rfl⟩ := List.exists_cons_of_ne_nil hcode
  cases hcount : operandCount offset opcode tail with
  | error fault =>
    refine .inr ⟨fault, offset_of_operandCount hcount, ?_⟩
    rw [listFrom, hcount]
  | ok n =>
    by_cases hlen : (tail.take n).length = n
    · refine .inl ⟨⟨offset, opcode, tail.take n⟩, tail.drop n, ?_, rfl, ?_⟩
      · exact wellFormed_of_operandCount hcount hlen
      · simp [Instruction.bytes]
    · refine .inr ⟨.pastEnd offset, rfl, ?_⟩
      rw [listFrom, hcount]
      simp only [if_neg hlen]

private theorem listFrom_assemble {offset : Nat} {is : List Instruction} (h : Placed offset is) :
    listFrom offset (assemble is) = ⟨is, none⟩ := by
  induction h with
  | nil => rw [assemble, List.flatMap_nil, listFrom]
  | @cons i is first rest ih =>
    rw [assemble, List.flatMap_cons, listFrom_append first]
    rw [assemble] at ih
    rw [ih]

/-- What a listing says about code that begins at `offset`. -/
structure AccountsFor (listing : Listing) (offset : Nat) (code : Bytes) : Prop where
  placed : Placed offset listing.instructions
  complete : listing.fault = none → code = assemble listing.instructions
  stopped : ∀ fault, listing.fault = some fault → ∃ rest, rest ≠ [] ∧
    code = assemble listing.instructions ++ rest ∧
    fault.offset = offset + (assemble listing.instructions).length ∧
    ∀ i, WellFormed i → i.offset = fault.offset → ¬ i.bytes <+: rest

theorem AccountsFor.cons {listing : Listing} {i : Instruction} {rest : Bytes}
    (h : AccountsFor listing (i.offset + 1 + i.operands.length) rest) (hi : WellFormed i) :
    AccountsFor { listing with instructions := i :: listing.instructions } i.offset
      (i.bytes ++ rest) := by
  have hassemble : assemble (i :: listing.instructions) =
      i.bytes ++ assemble listing.instructions := List.flatMap_cons
  refine ⟨.cons hi h.placed, ?_, ?_⟩
  · intro hnone
    rw [hassemble, ← h.complete hnone]
  · intro fault hfault
    obtain ⟨tail, hne, hrest, hoffset, hstuck⟩ := h.stopped fault hfault
    refine ⟨tail, hne, ?_, ?_, hstuck⟩
    · rw [hassemble, List.append_assoc, ← hrest]
    · rw [hoffset, hassemble, List.length_append, Instruction.bytes, List.length_cons]
      omega

private theorem accountsFor_listFrom (offset : Nat) (code : Bytes) :
    AccountsFor (listFrom offset code) offset code := by
  -- An instruction takes at least its opcode, so what follows it is shorter.
  induction hlen : code.length using Nat.strongRecOn generalizing offset code with
  | ind n ih =>
    by_cases hcode : code = []
    · subst hcode
      rw [listFrom]
      exact ⟨.nil, by simp [assemble], by simp⟩
    · rcases wellFormed_or_fault offset hcode with
        ⟨i, rest, hi, rfl, rfl⟩ | ⟨fault, hoffset, hstuck⟩
      · have hshort : rest.length < n := by
          simp only [Instruction.bytes, List.length_append, List.length_cons] at hlen
          omega
        rw [listFrom_append hi]
        exact (ih rest.length hshort _ rest rfl).cons hi
      · rw [hstuck]
        refine ⟨.nil, by simp, ?_⟩
        intro fault' heq
        cases heq
        refine ⟨code, hcode, rfl, by simpa [assemble] using hoffset, ?_⟩
        intro i hi hoff hprefix
        obtain ⟨rest, rfl⟩ := hprefix
        rw [← hoffset, ← hoff, listFrom_append hi] at hstuck
        cases hstuck

/-- **Listing inverts assembly.** Well-formed instructions are listed as they were assembled. Any
code is listed as well-formed instructions, each right behind the one before. They make up the
whole code, or all of it before the offset that the fault names, where no instruction stands. -/
theorem list_inverts_assemble :
    (∀ is, Placed 0 is → list (assemble is) = ⟨is, none⟩) ∧
    ∀ code, Placed 0 (list code).instructions ∧
      ((list code).fault = none → code = assemble (list code).instructions) ∧
      ∀ fault, (list code).fault = some fault →
        ∃ rest, rest ≠ [] ∧ code = assemble (list code).instructions ++ rest ∧
          NamesOffset fault.message (assemble (list code).instructions).length ∧
          ∀ i, WellFormed i → i.offset = (assemble (list code).instructions).length →
            ¬ i.bytes <+: rest := by
  refine ⟨fun is his => listFrom_assemble his, fun code => ?_⟩
  have hlist : AccountsFor (list code) 0 code := accountsFor_listFrom 0 code
  refine ⟨hlist.placed, hlist.complete, fun fault hfault => ?_⟩
  obtain ⟨rest, hne, hcode, hoffset, hstuck⟩ := hlist.stopped fault hfault
  rw [Nat.zero_add] at hoffset
  rw [← hoffset]
  exact ⟨rest, hne, hcode, fault.namesOffset, hstuck⟩

/-- Both switches behind other instructions, so that their padding differs, and a widened one. -/
def switchCode : List Instruction :=
  [⟨0, 0x00, []⟩,
    ⟨1, 0xAB, [0, 0] ++ ofInt32 7 ++ ofInt32 1 ++ [0, 0, 0, 42, 0, 0, 0, 19]⟩,
    ⟨20, 0xC4, [0x84, 0, 1, 0, 1]⟩,
    ⟨26, 0xAA, [0] ++ ofInt32 7 ++ ofInt32 (-1) ++ ofInt32 0 ++ [0, 0, 0, 22, 0, 0, 0, 22]⟩,
    ⟨48, 0xB1, []⟩]

theorem placed_switchCode : Placed 0 switchCode := by
  have hlookup : WellFormed
      ⟨1, 0xAB, [0, 0] ++ ofInt32 7 ++ ofInt32 1 ++ [0, 0, 0, 42, 0, 0, 0, 19]⟩ :=
    .lookupSwitch ⟨by decide, by decide⟩ (by decide) (by decide)
  have hwide : WellFormed ⟨20, 0xC4, [0x84, 0, 1, 0, 1]⟩ := .wideIncrement (by decide)
  have htable : WellFormed
      ⟨26, 0xAA, [0] ++ ofInt32 7 ++ ofInt32 (-1) ++ ofInt32 0 ++ [0, 0, 0, 22, 0, 0, 0, 22]⟩ :=
    .tableSwitch ⟨by decide, by decide⟩ (by decide) (by decide)
  exact .cons (.fixed (by decide)) (.cons hlookup (.cons hwide (.cons htable
    (.cons (.fixed (by decide)) .nil))))

theorem list_inverts_assemble_switchCode :
    (Placed 0 switchCode ∧ list (assemble switchCode) = ⟨switchCode, none⟩) ∧
    list [0x00, 0xB6, 0x01] = ⟨[⟨0, 0x00, []⟩], some (.pastEnd 1)⟩ ∧
      NamesOffset (Fault.pastEnd 1).message 1 := by
  have hlist : list [0x00, 0xB6, 0x01] = ⟨[⟨0, 0x00, []⟩], some (.pastEnd 1)⟩ := by
    simp [list, listFrom, operandCount, fixedOperands]
  obtain ⟨hassembled, hany⟩ := list_inverts_assemble
  refine ⟨⟨placed_switchCode, hassembled switchCode placed_switchCode⟩, hlist, ?_⟩
  obtain ⟨rest, -, -, hnames, -⟩ := (hany [0x00, 0xB6, 0x01]).2.2 (.pastEnd 1) (by rw [hlist])
  rw [hlist] at hnames
  exact hnames

end Code

end EndpointAudit
