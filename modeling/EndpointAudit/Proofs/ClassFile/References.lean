import EndpointAudit.ClassFile.Constant

/-!
# Well-typed references

What a slot of the constant pool stands for, said by the constants that a chain of slots goes
through and not by the resolvers. On a well-typed reference every resolver finds the value.
-/

namespace EndpointAudit.Pool

/-- The slot holds the constant; slot zero holds none. -/
def Holds (p : Pool) (slot : UInt16) (c : Constant) : Prop :=
  0 < slot.toNat ∧ p.slots[slot.toNat]? = some (some c)

instance (p : Pool) (slot : UInt16) (c : Constant) : Decidable (p.Holds slot c) :=
  inferInstanceAs (Decidable (_ ∧ _))

/-- The slot stands for a text. -/
def IsText (p : Pool) (slot : UInt16) (text : String) : Prop := p.Holds slot (.utf8 text)

instance (p : Pool) (slot : UInt16) (text : String) : Decidable (p.IsText slot text) :=
  inferInstanceAs (Decidable (p.Holds slot (.utf8 text)))

/-- The slot stands for the class with the given internal name. -/
def IsClass (p : Pool) (slot : UInt16) (name : String) : Prop :=
  ∃ text, p.Holds slot (.classRef text) ∧ p.IsText text name

/-- The slot stands for the name and the descriptor of a member. -/
def IsNameAndType (p : Pool) (slot : UInt16) (name descriptor : String) : Prop :=
  ∃ n d, p.Holds slot (.nameAndType n d) ∧ p.IsText n name ∧ p.IsText d descriptor

/-- The slot stands for a field, a method or a method of an interface. -/
inductive IsMember (p : Pool) (slot : UInt16) (target : MemberRef) : Prop
  | field {owner member : UInt16} (hslot : p.Holds slot (.fieldRef owner member))
      (howner : p.IsClass owner target.owner)
      (hmember : p.IsNameAndType member target.name target.descriptor)
  | method {owner member : UInt16} (hslot : p.Holds slot (.methodRef owner member))
      (howner : p.IsClass owner target.owner)
      (hmember : p.IsNameAndType member target.name target.descriptor)
  | interfaceMethod {owner member : UInt16}
      (hslot : p.Holds slot (.interfaceMethodRef owner member))
      (howner : p.IsClass owner target.owner)
      (hmember : p.IsNameAndType member target.name target.descriptor)

/-- The slot stands for a value that code or an annotation can load. A constant that is computed
when it is first needed has no value yet. -/
inductive IsLoadable (p : Pool) (slot : UInt16) : Option Loadable → Prop
  | string {text : UInt16} {value : String} (hslot : p.Holds slot (.string text))
      (htext : p.IsText text value) : IsLoadable p slot (some (.text value))
  | classRef {text : UInt16} {value : String} (hslot : p.Holds slot (.classRef text))
      (htext : p.IsText text value) : IsLoadable p slot (some (.text value))
  | methodType {text : UInt16} {value : String} (hslot : p.Holds slot (.methodType text))
      (htext : p.IsText text value) : IsLoadable p slot (some (.text value))
  | utf8 {value : String} (hslot : p.Holds slot (.utf8 value)) :
      IsLoadable p slot (some (.text value))
  | integer {value : Int32} (hslot : p.Holds slot (.integer value)) :
      IsLoadable p slot (some (.number value.toInt))
  | long {value : Int64} (hslot : p.Holds slot (.long value)) :
      IsLoadable p slot (some (.number value.toInt))
  | float {bits : UInt32} (hslot : p.Holds slot (.float bits)) :
      IsLoadable p slot (some (.float bits))
  | double {bits : UInt64} (hslot : p.Holds slot (.double bits)) :
      IsLoadable p slot (some (.double bits))
  | handle {kind : UInt8} {ref : UInt16} {target : MemberRef}
      (hslot : p.Holds slot (.methodHandle kind ref)) (htarget : p.IsMember ref target) :
      IsLoadable p slot (some (.handle { kind, target }))
  | dynamic {bootstrap member : UInt16} (hslot : p.Holds slot (.dynamic bootstrap member)) :
      IsLoadable p slot none

variable {p : Pool} {slot : UInt16}

theorem Holds.entry {c : Constant} (h : p.Holds slot c) : p.entry slot.toNat = .ok c := by
  have hpos : ¬ (slot.toNat : Int) ≤ 0 := by have := h.1; omega
  rw [Pool.entry, if_neg hpos, Int.toNat_natCast, h.2]

theorem Holds.utf8 {text : String} (h : p.Holds slot (.utf8 text)) :
    p.utf8 slot.toNat = .ok text := by
  rw [Pool.utf8, h.entry]
  rfl

theorem IsClass.className {name : String} (h : p.IsClass slot name) :
    p.className slot.toNat = .ok name := by
  obtain ⟨text, hslot, htext⟩ := h
  rw [Pool.className, hslot.entry]
  exact Holds.utf8 htext

theorem IsNameAndType.nameAndType {name descriptor : String}
    (h : p.IsNameAndType slot name descriptor) :
    p.nameAndType slot.toNat = .ok (name, descriptor) := by
  obtain ⟨n, d, hslot, hname, hdescriptor⟩ := h
  simp only [Pool.nameAndType, hslot.entry, Holds.utf8 hname, Holds.utf8 hdescriptor, bind,
    Except.bind]

theorem IsMember.memberRef {target : MemberRef} (h : p.IsMember slot target) :
    p.memberRef slot.toNat = .ok target := by
  cases h with
  | field hslot howner hmember | method hslot howner hmember
  | interfaceMethod hslot howner hmember =>
    simp only [Pool.memberRef, hslot.entry, hmember.nameAndType, howner.className, bind,
      Except.bind]

theorem IsLoadable.loadable {value : Option Loadable} (h : p.IsLoadable slot value) :
    p.loadable slot.toNat = .ok value := by
  cases h with
  | string hslot htext | classRef hslot htext | methodType hslot htext =>
    simp only [Pool.loadable, hslot.entry, Holds.utf8 htext, bind, Except.bind]
    rfl
  | handle hslot htarget =>
    simp only [Pool.loadable, hslot.entry, htarget.memberRef, bind, Except.bind]
    rfl
  | utf8 hslot | integer hslot | long hslot | float hslot | double hslot | dynamic hslot =>
    rw [Pool.loadable, hslot.entry]
    rfl

end EndpointAudit.Pool
