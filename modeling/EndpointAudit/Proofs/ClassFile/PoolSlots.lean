import EndpointAudit.Proofs.ClassFile.Layout
import EndpointAudit.Proofs.Data.Except
import Mathlib.Data.List.Forall2
import Mathlib.Data.List.ReduceOption

/-!
# The slots of a constant pool

The constants that are read stand in the file one after the other, each behind its tag. In the pool
a wide constant is followed by an empty slot, and there are no other empty slots but slot zero.
-/

namespace EndpointAudit

/-! ## Readers and the form of what they take -/

namespace Reader

/-- Whatever the reader finds, it takes from the front of its input in bytes of the given form. -/
def Takes {α : Type} (read : Reader α) (Form : α → Bytes → Prop) : Prop :=
  ∀ input value rest, read input = .ok (value, rest) →
    ∃ used, Form value used ∧ input = used ++ rest

variable {α β : Type}

theorem takes_pure {value : α} {Form : α → Bytes → Prop} (h : Form value []) :
    Takes (pure value) Form := by
  intro input value' rest heq
  cases heq
  exact ⟨[], h, rfl⟩

theorem takes_throw (e : ClassError) {Form : α → Bytes → Prop} : Takes (throw e) Form := by
  intro input value rest heq
  cases heq

theorem Takes.bind {first : Reader α} {next : α → Reader β} {Form₁ : α → Bytes → Prop}
    {Form : β → Bytes → Prop} (h₁ : Takes first Form₁)
    (h₂ : ∀ a u₁, Form₁ a u₁ → Takes (next a) fun b u₂ => Form b (u₁ ++ u₂)) :
    Takes (first >>= next) Form := by
  intro input value rest heq
  obtain ⟨⟨a, between⟩, hfirst, hrest⟩ := exists_of_bind_eq_ok
    (show (first input).bind (fun p => next p.1 p.2) = .ok (value, rest) from heq)
  obtain ⟨u₁, hu₁, rfl⟩ := h₁ input a between hfirst
  obtain ⟨u₂, hu₂, rfl⟩ := h₂ a u₁ hu₁ between value rest hrest
  exact ⟨u₁ ++ u₂, hu₂, by simp⟩

theorem Takes.bind_pure {read : Reader α} {Form : α → Bytes → Prop} {Form' : β → Bytes → Prop}
    (h : Takes read Form) (f : α → β) (hf : ∀ a used, Form a used → Form' (f a) used) :
    Takes (read >>= fun a => pure (f a)) Form' := by
  apply h.bind
  intro a used hused
  apply takes_pure
  rw [List.append_nil]
  exact hf a used hused

theorem takes_take (n : Nat) :
    Takes (take n) fun bytes used => used = bytes ∧ bytes.length = n := by
  intro input value rest heq
  simp only [take] at heq
  split at heq
  · next hlen =>
    cases heq
    exact ⟨_, ⟨rfl, hlen⟩, (List.take_append_drop n input).symm⟩
  · cases heq

theorem takes_number (n : Nat) :
    Takes (number n) fun value used => used = Bytes.ofNatBE n value ∧ value < 256 ^ n := by
  refine (takes_take n).bind_pure Bytes.toNatBE ?_
  rintro bytes used ⟨hused, hlen⟩
  rw [hused, ← hlen]
  exact ⟨(Bytes.ofNatBE_toNatBE bytes).symm, Bytes.toNatBE_lt bytes⟩

theorem takes_u1 : Takes u1 fun value used => used = [value] := by
  refine (takes_number 1).bind_pure UInt8.ofNat ?_
  rintro value used ⟨hused, _⟩
  rw [hused]
  rfl

theorem takes_u2 : Takes u2 fun value used => used = Bytes.ofUInt16 value := by
  refine (takes_number 2).bind_pure UInt16.ofNat ?_
  rintro value used ⟨hused, hlt⟩
  rw [hused, Bytes.ofUInt16, UInt16.toNat_ofNat_of_lt' hlt]

theorem takes_u4 : Takes u4 fun value used => used = Bytes.ofUInt32 value := by
  refine (takes_number 4).bind_pure UInt32.ofNat ?_
  rintro value used ⟨hused, hlt⟩
  rw [hused, Bytes.ofUInt32, UInt32.toNat_ofNat_of_lt' hlt]

theorem takes_u8 : Takes u8 fun value used => used = Bytes.ofUInt64 value := by
  refine (takes_number 8).bind_pure UInt64.ofNat ?_
  rintro value used ⟨hused, hlt⟩
  rw [hused, Bytes.ofUInt64, UInt64.toNat_ofNat_of_lt' hlt]

end Reader

/-! ## Constants -/

namespace Constant

/-- The bytes that may stand behind a constant's tag: its payload, which for a text is any encoding
of it. -/
def HasPayload : Constant → Bytes → Prop
  | .utf8 text, bytes => ∃ raw : Bytes, raw.length < 65536 ∧
      bytes = Bytes.ofNatBE 2 raw.length ++ raw ∧ ModifiedUtf8.decode raw = some text
  | c, bytes => bytes = c.payload

/-- The bytes are the constant's tag and a payload of the shape that goes with the tag. -/
def WrittenAs (c : Constant) (bytes : Bytes) : Prop :=
  ∃ payload, bytes = c.tag :: payload ∧ c.HasPayload payload

end Constant

namespace ClassFile

open Reader

private theorem takes_readText :
    Takes readText fun text used => Constant.HasPayload (.utf8 text) used := by
  apply takes_u2.bind
  rintro length _ rfl
  apply (takes_take length.toNat).bind
  rintro _ raw ⟨rfl, hlength⟩
  cases hdecode : ModifiedUtf8.decode raw with
  | some text =>
    apply takes_pure
    refine ⟨raw, hlength ▸ length.toNat_lt, ?_, hdecode⟩
    rw [List.append_nil, hlength]
    rfl
  | none => exact takes_throw _

/-- A constant that consists of two references. -/
private theorem takes_pair {Form : Constant → Bytes → Prop} (make : UInt16 → UInt16 → Constant)
    (h : ∀ a b, Form (make a b) (Bytes.ofUInt16 a ++ Bytes.ofUInt16 b)) :
    Takes (do return make (← u2) (← u2)) Form := by
  apply takes_u2.bind
  rintro a _ rfl
  apply takes_u2.bind_pure (make a)
  rintro b _ rfl
  exact h a b

/-- One case for each kind of constant, by its tag. -/
theorem takes_readConstant (slot : Nat) : Takes (readConstant slot) Constant.WrittenAs := by
  apply takes_u1.bind
  rintro tag _ rfl
  split
  · exact takes_readText.bind_pure Constant.utf8 fun _ used h => ⟨used, rfl, h⟩
  · exact takes_u4.bind_pure (fun n => Constant.integer n.toInt32) fun _ used h => ⟨used, rfl, h⟩
  · exact takes_u4.bind_pure Constant.float fun _ used h => ⟨used, rfl, h⟩
  · exact takes_u8.bind_pure (fun n => Constant.long n.toInt64) fun _ used h => ⟨used, rfl, h⟩
  · exact takes_u8.bind_pure Constant.double fun _ used h => ⟨used, rfl, h⟩
  · exact takes_u2.bind_pure Constant.classRef fun _ used h => ⟨used, rfl, h⟩
  · exact takes_u2.bind_pure Constant.string fun _ used h => ⟨used, rfl, h⟩
  · exact takes_pair Constant.fieldRef fun _ _ => ⟨_, rfl, rfl⟩
  · exact takes_pair Constant.methodRef fun _ _ => ⟨_, rfl, rfl⟩
  · exact takes_pair Constant.interfaceMethodRef fun _ _ => ⟨_, rfl, rfl⟩
  · exact takes_pair Constant.nameAndType fun _ _ => ⟨_, rfl, rfl⟩
  · apply takes_u1.bind
    rintro kind _ rfl
    apply takes_u2.bind_pure (Constant.methodHandle kind)
    rintro ref _ rfl
    exact ⟨_, rfl, rfl⟩
  · exact takes_u2.bind_pure Constant.methodType fun _ used h => ⟨used, rfl, h⟩
  · exact takes_pair Constant.dynamic fun _ _ => ⟨_, rfl, rfl⟩
  · exact takes_pair Constant.invokeDynamic fun _ _ => ⟨_, rfl, rfl⟩
  · exact takes_u2.bind_pure Constant.moduleName fun _ used h => ⟨used, rfl, h⟩
  · exact takes_u2.bind_pure Constant.packageName fun _ used h => ⟨used, rfl, h⟩
  · exact takes_throw _

end ClassFile

/-! ## Slots -/

namespace Pool

/-- Slots from slot one on: a wide constant is followed by an empty slot, unless it is the last. -/
inductive SlotsSpaced : List (Option Constant) → Prop
  | nil : SlotsSpaced []
  | narrow {c : Constant} {rest : List (Option Constant)} (hc : c.isWide = false)
      (hrest : SlotsSpaced rest) : SlotsSpaced (some c :: rest)
  | wideLast {c : Constant} (hc : c.isWide = true) : SlotsSpaced [some c]
  | wide {c : Constant} {rest : List (Option Constant)} (hc : c.isWide = true)
      (hrest : SlotsSpaced rest) : SlotsSpaced (some c :: none :: rest)

theorem SlotsSpaced.head {slots : List (Option Constant)} (h : SlotsSpaced slots) :
    slots[0]? ≠ some none := by
  cases h <;> simp

theorem SlotsSpaced.empty_iff {slots : List (Option Constant)} (h : SlotsSpaced slots) {i : Nat}
    (hi : i + 1 < slots.length) :
    slots[i + 1]? = some none ↔ ∃ c, slots[i]? = some (some c) ∧ c.isWide = true := by
  induction h generalizing i with
  | nil => simp at hi
  | @narrow c rest hc hrest ih =>
    cases i with
    | zero =>
      have hhead := hrest.head
      simp only [List.getElem?_cons_succ, hhead, false_iff]
      simp [hc]
    | succ i => simpa using ih (by simpa using hi)
  | wideLast hc => simp at hi
  | @wide c rest hc hrest ih =>
    match i with
    | 0 => simp [hc]
    | 1 => simpa using hrest.head
    | i + 2 =>
      simp only [List.length_cons] at hi
      simpa using ih (by omega)

/-- The bytes of the constants in a number of slots, one constant after the other. -/
structure SlotsWrittenAs (count : Nat) (slots : List (Option Constant)) (bytes : Bytes) : Prop where
  length : slots.length = count
  spaced : SlotsSpaced slots
  written : ∃ parts, List.Forall₂ Constant.WrittenAs slots.reduceOption parts ∧
    bytes = parts.flatten

/-- The empty slots are slot zero and the slots behind a wide constant. -/
structure IsSpaced (p : Pool) : Prop where
  size_lt : p.slots.size < 65536
  first : ∀ c, p.slots[0]? ≠ some (some c)
  empty_iff : ∀ i, i + 1 < p.slots.size →
    (p.slots[i + 1]? = some none ↔ ∃ c, p.slots[i]? = some (some c) ∧ c.isWide = true)

/-- The bytes of a pool: the number of its slots and then its constants. -/
structure WrittenAs (p : Pool) (bytes : Bytes) : Prop where
  isSpaced : p.IsSpaced
  written : ∃ parts, List.Forall₂ Constant.WrittenAs p.slots.toList.reduceOption parts ∧
    bytes = Bytes.ofNatBE 2 p.slots.size ++ parts.flatten

theorem exists_isWide_iff {slot : Option (Option Constant)} :
    (∃ c, slot = some (some c) ∧ c.isWide = true) ↔
      (∃ value, slot = some (some (.long value))) ∨ ∃ bits, slot = some (some (.double bits)) := by
  constructor
  · rintro ⟨c, rfl, hc⟩
    cases c with
    | long value => exact .inl ⟨value, rfl⟩
    | double bits => exact .inr ⟨bits, rfl⟩
    | _ => cases hc
  · rintro (⟨value, rfl⟩ | ⟨bits, rfl⟩)
    · exact ⟨.long value, rfl, rfl⟩
    · exact ⟨.double bits, rfl, rfl⟩

private theorem isSpaced_of_slotsSpaced {slots : List (Option Constant)}
    (hlt : slots.length + 1 < 65536)
    (h : SlotsSpaced slots) : (Pool.mk (none :: slots).toArray).IsSpaced := by
  refine ⟨by simpa using hlt, by simp, ?_⟩
  intro i hi
  simp only [List.size_toArray, List.length_cons, Nat.add_lt_add_iff_right] at hi
  simp only [List.getElem?_toArray, List.getElem?_cons_succ]
  cases i with
  | zero => simpa using h.head
  | succ i => simpa using h.empty_iff hi

end Pool

namespace ClassFile

open Reader Pool

private theorem takes_readSlots (left slot : Nat) :
    Takes (readSlots left slot) (SlotsWrittenAs left) := by
  fun_induction readSlots left slot with
  | case1 slot => exact takes_pure ⟨rfl, .nil, [], .nil, rfl⟩
  | case2 left slot ihwide ih =>
    apply (takes_readConstant slot).bind
    intro constant part hpart
    by_cases hwide : constant.isWide = true
    · rw [if_pos hwide]
      cases left with
      | zero => exact takes_pure ⟨rfl, .wideLast hwide, [part], .cons hpart .nil, by simp⟩
      | succ left =>
        apply ihwide.bind_pure (some constant :: none :: ·)
        rintro slots used ⟨hlength, hspaced, parts, hparts, hused⟩
        refine ⟨by simp [hlength], .wide hwide hspaced, part :: parts, ?_, by simp [hused]⟩
        exact .cons hpart hparts
    · rw [if_neg hwide]
      apply ih.bind_pure (some constant :: ·)
      rintro slots used ⟨hlength, hspaced, parts, hparts, hused⟩
      have hnarrow : constant.isWide = false := eq_false_of_ne_true hwide
      refine ⟨by simp [hlength], .narrow hnarrow hspaced, part :: parts, ?_, by simp [hused]⟩
      exact .cons hpart hparts

theorem takes_readPool : Takes readPool Pool.WrittenAs := by
  apply takes_u2.bind
  rintro count _ rfl
  have hlt := count.toNat_lt
  split
  · next hcount =>
    refine takes_pure ⟨⟨by simp, by simp, by simp⟩, [], .nil, ?_⟩
    simp [Bytes.ofUInt16, hcount]
  · next left hcount =>
    apply (takes_readSlots left 1).bind_pure fun slots => Pool.mk (none :: slots).toArray
    rintro slots used ⟨hlength, hspaced, parts, hparts, hused⟩
    refine ⟨isSpaced_of_slotsSpaced (by omega) hspaced, parts, hparts, ?_⟩
    simp [Bytes.ofUInt16, hcount, hlength, hused]

end ClassFile

end EndpointAudit
