import EndpointAudit.ClassFile.Basic
import EndpointAudit.Proofs.ClassFile.PoolSlots
import EndpointAudit.Proofs.ClassFile.References

/-!
# Resolving constants

A resolver of a pool that has been read takes any number. It finds a value exactly if the number
stands for one, and otherwise names a slot that is to blame: one that the pool does not have, one
that is empty, or one with a constant of the wrong kind.
-/

namespace EndpointAudit

namespace Pool

/-- The number is that of a slot with the given property. -/
def AtSlot (index : Int) (Means : UInt16 → Prop) : Prop :=
  ∃ slot : UInt16, index = slot.toNat ∧ Means slot

@[simp] theorem atSlot_toNat (slot : UInt16) (Means : UInt16 → Prop) :
    AtSlot slot.toNat Means ↔ Means slot := by
  constructor
  · rintro ⟨slot', heq, h⟩
    have hslot : slot = slot' := UInt16.toNat_inj.mp (by omega)
    exact hslot ▸ h
  · exact fun h => ⟨slot, rfl, h⟩

/-- The fault is there: the slot is missing, empty or holds a constant with that tag. -/
def Fault.IsTrue (p : Pool) : Fault → Prop
  | .index slot => slot ≤ 0 ∨ p.slots.size ≤ slot ∨ p.slots[slot.toNat]? = some none
  | .tag slot kind => AtSlot slot fun s => ∃ c, p.Holds s c ∧ c.tag = kind

/-- The slot stands for the text of a string constant. Other constants stand for no text. -/
inductive IsString (p : Pool) (slot : UInt16) : Option String → Prop
  | string {text : UInt16} {value : String} (hslot : p.Holds slot (.string text))
      (htext : p.IsText text value) : IsString p slot (some value)
  | other {c : Constant} (hslot : p.Holds slot c) (hc : ∀ text, c ≠ .string text) :
      IsString p slot none

/-- The slot stands for a value, or for nothing if it holds a constant that only other constants
refer to. -/
inductive StandsFor (p : Pool) (slot : UInt16) : Option Loadable → Prop
  | loadable {value : Option Loadable} (h : p.IsLoadable slot value) : StandsFor p slot value
  | other {c : Constant} (hslot : p.Holds slot c) (hc : c.tag ∈ [9, 10, 11, 12, 18, 19, 20]) :
      StandsFor p slot none

/-- The slot stands for a dynamic constant or call. -/
def IsDynamic (p : Pool) (slot : UInt16) (bootstrap : UInt16) (name descriptor : String) : Prop :=
  ∃ member, (p.Holds slot (.invokeDynamic bootstrap member) ∨
    p.Holds slot (.dynamic bootstrap member)) ∧ p.IsNameAndType member name descriptor

variable {p : Pool} {slot : UInt16}

theorem IsString.stringConstant {value : Option String} (h : p.IsString slot value) :
    p.stringConstant slot.toNat = .ok value := by
  cases h with
  | string hslot htext =>
    simp only [Pool.stringConstant, hslot.entry, Holds.utf8 htext, bind, Except.bind]
    rfl
  | @other c hslot hc =>
    rw [Pool.stringConstant, hslot.entry]
    cases c with
    | string text => exact absurd rfl (hc text)
    | _ => rfl

private theorem StandsFor.loadable_eq {value : Option Loadable} (h : p.StandsFor slot value) :
    p.loadable slot.toNat = .ok value := by
  cases h with
  | loadable h => exact h.loadable
  | @other c hslot hc =>
    rw [Pool.loadable, hslot.entry]
    cases c with
    | fieldRef | methodRef | interfaceMethodRef | nameAndType | invokeDynamic | moduleName
    | packageName => rfl
    | _ => simp [Constant.tag] at hc

theorem IsDynamic.dynamicRef {bootstrap : UInt16} {name descriptor : String}
    (h : p.IsDynamic slot bootstrap name descriptor) :
    p.dynamicRef slot.toNat = .ok (bootstrap.toNat, name, descriptor) := by
  obtain ⟨member, hslot | hslot, hmember⟩ := h <;>
    simp only [Pool.dynamicRef, hslot.entry, hmember.nameAndType, bind, Except.bind]

/-! ## What the resolvers find -/

variable (hp : p.IsSpaced)
include hp

theorem ends_entry (index : Int) :
    Ends (p.entry index) (fun c => AtSlot index (p.Holds · c)) (Fault.IsTrue p) := by
  have hlt := hp.size_lt
  rw [entry]
  split
  · next hneg => exact .inl hneg
  · next hpos =>
    split
    · next c hc =>
      have hin : index.toNat < 65536 := by
        have := (Array.getElem?_eq_some_iff.mp hc).1
        omega
      refine ⟨UInt16.ofNat index.toNat, ?_, ?_, ?_⟩ <;> rw [UInt16.toNat_ofNat_of_lt' hin]
      · omega
      · omega
      · exact hc
    · next hnone =>
      right
      cases hslot : p.slots[index.toNat]? with
      | none =>
        left
        have := Array.getElem?_eq_none_iff.mp hslot
        omega
      | some held =>
        cases held with
        | none => exact .inr rfl
        | some c => exact absurd hslot (hnone c)

omit hp in
/-- The slot holds a constant of the wrong kind. -/
theorem ends_tag {α : Type} {c : Constant} {Means : α → Prop} (hc : p.Holds slot c) :
    Ends (.error (.tag slot.toNat c.tag)) Means (Fault.IsTrue p) :=
  ⟨slot, rfl, c, hc, rfl⟩

theorem ends_utf8 (index : Int) :
    Ends (p.utf8 index) (fun text => AtSlot index (p.IsText · text)) (Fault.IsTrue p) := by
  apply (ends_entry hp index).bind
  rintro c ⟨slot, rfl, hc⟩
  cases c with
  | utf8 text => exact ⟨slot, rfl, hc⟩
  | _ => exact ends_tag hc

theorem ends_text (slot : UInt16) : Ends (p.utf8 slot.toNat) (p.IsText slot) (Fault.IsTrue p) := by
  simpa using ends_utf8 hp slot.toNat

theorem ends_className (index : Int) :
    Ends (p.className index) (fun name => AtSlot index (p.IsClass · name)) (Fault.IsTrue p) := by
  apply (ends_entry hp index).bind
  rintro c ⟨slot, rfl, hc⟩
  cases c with
  | classRef text => exact (ends_text hp text).imp fun name hname => ⟨slot, rfl, text, hc, hname⟩
  | _ => exact ends_tag hc

theorem ends_nameAndType (index : Int) :
    Ends (p.nameAndType index) (fun found => AtSlot index (p.IsNameAndType · found.1 found.2))
      (Fault.IsTrue p) := by
  apply (ends_entry hp index).bind
  rintro c ⟨slot, rfl, hc⟩
  cases c with
  | nameAndType n d =>
    apply (ends_text hp n).bind
    intro name hname
    apply (ends_text hp d).bind
    intro descriptor hdescriptor
    exact ⟨slot, rfl, n, d, hc, hname, hdescriptor⟩
  | _ => exact ends_tag hc

theorem ends_target (owner member : UInt16) :
    Ends (do
        let (name, descriptor) ← p.nameAndType member.toNat
        let owner ← p.className owner.toNat
        .ok { owner, name, descriptor })
      (fun target : MemberRef => p.IsClass owner target.owner ∧
        p.IsNameAndType member target.name target.descriptor) (Fault.IsTrue p) := by
  apply (ends_nameAndType hp member.toNat).bind
  intro found hmember
  apply (ends_className hp owner.toNat).bind
  intro name howner
  simp only [atSlot_toNat] at hmember howner
  exact ⟨howner, hmember⟩

theorem ends_memberRef (index : Int) :
    Ends (p.memberRef index) (fun target => AtSlot index (p.IsMember · target))
      (Fault.IsTrue p) := by
  apply (ends_entry hp index).bind
  rintro c ⟨slot, rfl, hc⟩
  cases c with
  | fieldRef owner member =>
    exact (ends_target hp owner member).imp fun _ h => ⟨slot, rfl, .field hc h.1 h.2⟩
  | methodRef owner member =>
    exact (ends_target hp owner member).imp fun _ h => ⟨slot, rfl, .method hc h.1 h.2⟩
  | interfaceMethodRef owner member =>
    exact (ends_target hp owner member).imp fun _ h => ⟨slot, rfl, .interfaceMethod hc h.1 h.2⟩
  | _ => exact ends_tag hc

private theorem ends_stringConstant (index : Int) :
    Ends (p.stringConstant index) (fun value => AtSlot index (p.IsString · value))
      (Fault.IsTrue p) := by
  apply (ends_entry hp index).bind
  rintro c ⟨slot, rfl, hc⟩
  cases c with
  | string text =>
    apply (ends_text hp text).bind
    intro value hvalue
    exact ⟨slot, rfl, .string hc hvalue⟩
  | _ => exact ⟨slot, rfl, .other hc (by simp)⟩

private theorem ends_loadable (index : Int) :
    Ends (p.loadable index) (fun value => AtSlot index (p.StandsFor · value))
      (Fault.IsTrue p) := by
  apply (ends_entry hp index).bind
  rintro c ⟨slot, rfl, hc⟩
  have hvalue : ∀ {value}, p.IsLoadable slot value → AtSlot slot.toNat (p.StandsFor · value) :=
    fun h => ⟨slot, rfl, .loadable h⟩
  cases c with
  | string text => exact (ends_text hp text).bind fun _ htext => hvalue (.string hc htext)
  | classRef text => exact (ends_text hp text).bind fun _ htext => hvalue (.classRef hc htext)
  | methodType text => exact (ends_text hp text).bind fun _ htext => hvalue (.methodType hc htext)
  | methodHandle kind ref =>
    apply (ends_memberRef hp ref.toNat).bind
    intro target htarget
    simp only [atSlot_toNat] at htarget
    exact hvalue (.handle hc htarget)
  | utf8 => exact hvalue (.utf8 hc)
  | integer => exact hvalue (.integer hc)
  | long => exact hvalue (.long hc)
  | float => exact hvalue (.float hc)
  | double => exact hvalue (.double hc)
  | dynamic => exact hvalue (.dynamic hc)
  | _ => exact ⟨slot, rfl, .other hc (by simp [Constant.tag])⟩

private theorem ends_dynamicRef (index : Int) :
    Ends (p.dynamicRef index) (fun found => AtSlot index fun slot => ∃ bootstrap : UInt16,
        found.1 = bootstrap.toNat ∧ p.IsDynamic slot bootstrap found.2.1 found.2.2)
      (Fault.IsTrue p) := by
  apply (ends_entry hp index).bind
  rintro c ⟨slot, rfl, hc⟩
  cases c with
  | invokeDynamic bootstrap member =>
    apply (ends_nameAndType hp member.toNat).bind
    intro found hmember
    simp only [atSlot_toNat] at hmember
    exact ⟨slot, rfl, bootstrap, rfl, member, .inl hc, hmember⟩
  | dynamic bootstrap member =>
    apply (ends_nameAndType hp member.toNat).bind
    intro found hmember
    simp only [atSlot_toNat] at hmember
    exact ⟨slot, rfl, bootstrap, rfl, member, .inr hc, hmember⟩
  | _ => exact ends_tag hc

end Pool

/-! ## Numbers in a class -/

namespace ClassFile

open Pool

/-- The error names the class and a fault that its pool has. -/
def Blames (cls : ClassFile) (e : ClassError) : Prop :=
  ∃ fault, e = .pool cls.typeName fault ∧ Fault.IsTrue cls.pool fault

/-- What the resolvers of a class do with a number: each finds what the slot with that number stands
for, or fails because of the pool. -/
structure Settled (cls : ClassFile) (index : Int) : Prop where
  entry : Settles (cls.resolve (cls.pool.entry index))
    (fun c => AtSlot index (cls.pool.Holds · c)) cls.Blames
  utf8 : Settles (cls.resolve (cls.pool.utf8 index))
    (fun text => AtSlot index (cls.pool.IsText · text)) cls.Blames
  className : Settles (cls.resolve (cls.pool.className index))
    (fun name => AtSlot index (cls.pool.IsClass · name)) cls.Blames
  nameAndType : Settles (cls.resolve (cls.pool.nameAndType index))
    (fun found => AtSlot index (cls.pool.IsNameAndType · found.1 found.2)) cls.Blames
  memberRef : Settles (cls.resolve (cls.pool.memberRef index))
    (fun target => AtSlot index (cls.pool.IsMember · target)) cls.Blames
  stringConstant : Settles (cls.resolve (cls.pool.stringConstant index))
    (fun value => AtSlot index (cls.pool.IsString · value)) cls.Blames
  loadable : Settles (cls.resolve (cls.pool.loadable index))
    (fun value => AtSlot index (cls.pool.StandsFor · value)) cls.Blames
  invokeDynamic : Settles (cls.invokeDynamic index)
    (fun found => AtSlot index fun slot => ∃ bootstrap : UInt16,
      found.1 = cls.bootstrapMethods[bootstrap.toNat]? ∧
      cls.pool.IsDynamic slot bootstrap found.2.1 found.2.2) cls.Blames

variable {cls : ClassFile}

theorem ends_resolve {α : Type} {found : Except Fault α} {Means : α → Prop}
    (h : Ends found Means (Fault.IsTrue cls.pool)) :
    Ends (cls.resolve found) Means cls.Blames :=
  h.mapError fun fault hfault => ⟨fault, rfl, hfault⟩

theorem settles_resolve {α : Type} {found : Except Fault α} {index : Int}
    {Means : UInt16 → α → Prop}
    (h : Ends found (fun value => AtSlot index (Means · value)) (Fault.IsTrue cls.pool))
    (hfound : ∀ slot value, index = slot.toNat → Means slot value → found = .ok value) :
    Settles (cls.resolve found) (fun value => AtSlot index (Means · value)) cls.Blames := by
  apply (ends_resolve h).settles
  rintro value ⟨slot, hslot, hvalue⟩
  rw [hfound slot value hslot hvalue]
  rfl

private theorem settles_invokeDynamic (hp : cls.pool.IsSpaced) (index : Int) :
    Settles (cls.invokeDynamic index)
      (fun found => AtSlot index fun slot => ∃ bootstrap : UInt16,
        found.1 = cls.bootstrapMethods[bootstrap.toNat]? ∧
        cls.pool.IsDynamic slot bootstrap found.2.1 found.2.2) cls.Blames := by
  apply Ends.settles
  · apply (ends_resolve (ends_dynamicRef hp index)).bind
    rintro ⟨number, name, descriptor⟩ ⟨slot, hslot, bootstrap, rfl, hdynamic⟩
    exact ⟨slot, hslot, bootstrap, rfl, hdynamic⟩
  · rintro ⟨method, name, descriptor⟩ ⟨slot, rfl, bootstrap, rfl, hdynamic⟩
    rw [ClassFile.invokeDynamic, hdynamic.dynamicRef]
    rfl

private theorem settled_of_isSpaced (hp : cls.pool.IsSpaced) (index : Int) : cls.Settled index where
  entry := settles_resolve (ends_entry hp index) fun _ _ hslot h => hslot ▸ h.entry
  utf8 := settles_resolve (ends_utf8 hp index) fun _ _ hslot h => hslot ▸ Holds.utf8 h
  className := settles_resolve (ends_className hp index) fun _ _ hslot h => hslot ▸ h.className
  nameAndType := settles_resolve (ends_nameAndType hp index)
    fun _ _ hslot h => hslot ▸ h.nameAndType
  memberRef := settles_resolve (ends_memberRef hp index) fun _ _ hslot h => hslot ▸ h.memberRef
  stringConstant := settles_resolve (ends_stringConstant hp index)
    fun _ _ hslot h => hslot ▸ h.stringConstant
  loadable := settles_resolve (ends_loadable hp index) fun _ _ hslot h => hslot ▸ h.loadable_eq
  invokeDynamic := settles_invokeDynamic hp index

/-- **Pools that have been read.** A pool has as many slots as its first two bytes say, and behind
them stand the constants in its slots, each as its tag and a payload of the tag's shape. Slot zero
is empty, and so are the slots behind a `long` or a `double` and no others. Every number, whether it
is that of a slot or not, is settled by each of the resolvers. -/
theorem readPool_outcome {bytes rest : Bytes} {pool : Pool}
    (h : readPool bytes = .ok (pool, rest)) :
    (∃ (count : UInt16) (parts : List Bytes),
      bytes = Bytes.ofUInt16 count ++ parts.flatten ++ rest ∧ pool.slots.size = count.toNat ∧
      List.Forall₂ Constant.WrittenAs pool.slots.toList.reduceOption parts) ∧
    (∀ c, pool.slots[0]? ≠ some (some c)) ∧
    (∀ i, i + 1 < pool.slots.size →
      (pool.slots[i + 1]? = some none ↔
        (∃ value, pool.slots[i]? = some (some (.long value))) ∨
          ∃ bits, pool.slots[i]? = some (some (.double bits)))) ∧
    ∀ cls : ClassFile, cls.pool = pool → ∀ index, cls.Settled index := by
  obtain ⟨used, ⟨hspaced, parts, hparts, hused⟩, hbytes⟩ := takes_readPool bytes pool rest h
  refine ⟨?_, hspaced.first, fun i hi => ?_, ?_⟩
  · have hsize := UInt16.toNat_ofNat_of_lt' hspaced.size_lt
    refine ⟨UInt16.ofNat pool.slots.size, parts, ?_, hsize.symm, hparts⟩
    rw [Bytes.ofUInt16, hsize, hbytes, hused]
  · exact (hspaced.empty_iff i hi).trans exists_isWide_iff
  · rintro cls rfl index
    exact settled_of_isSpaced hspaced index

/-- A text, a class that it names, and an eight-byte number with its empty slot; one byte is left
over. -/
def widePoolBytes : Bytes :=
  [0, 5, 1, 0, 1, 65, 7, 0, 1, 5, 0, 0, 0, 0, 0, 0, 0, 9, 255]

def widePool : Pool :=
  { slots := #[none, some (.utf8 "A"), some (.classRef 1), some (.long 9), none] }

theorem readPool_outcome_widePool :
    readPool widePoolBytes = .ok (widePool, [255]) ∧
      ∀ index, ({ name := "A", pool := widePool } : ClassFile).Settled index := by
  have hread : readPool widePoolBytes = .ok (widePool, [255]) := by decide +kernel
  exact ⟨hread, (readPool_outcome hread).2.2.2 _ rfl⟩

end ClassFile

end EndpointAudit
