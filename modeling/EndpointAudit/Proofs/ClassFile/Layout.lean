import EndpointAudit.Proofs.ClassFile.ModifiedUtf8
import EndpointAudit.Proofs.ClassFile.Reads
import EndpointAudit.Proofs.ClassFile.References
import EndpointAudit.Proofs.Data.Assoc

/-!
# The layout of class files

A class in the form in which it is written: the constants of its pool, and members and attributes
that name their parts by slot. Every reference carries the value that its slot stands for, so what
a reader should find can be said without resolving anything.
-/

namespace EndpointAudit

/-- A slot of the constant pool with the value that it stands for. -/
structure SlotRef (α : Type) where
  slot : UInt16
  value : α

def SlotRef.encode {α : Type} (r : SlotRef α) : Bytes := Bytes.ofUInt16 r.slot

@[simp] theorem SlotRef.length_encode {α : Type} (r : SlotRef α) : r.encode.length = 2 :=
  Bytes.length_ofUInt16 r.slot

/-! ## Constants -/

namespace Constant

/-- The bytes of a constant behind its tag. -/
def payload : Constant → Bytes
  | .utf8 text => Bytes.ofNatBE 2 (ModifiedUtf8.encode text).length ++ ModifiedUtf8.encode text
  | .integer value => Bytes.ofUInt32 value.toUInt32
  | .float bits => Bytes.ofUInt32 bits
  | .long value => Bytes.ofUInt64 value.toUInt64
  | .double bits => Bytes.ofUInt64 bits
  | .classRef slot | .string slot | .methodType slot | .moduleName slot | .packageName slot =>
    Bytes.ofUInt16 slot
  | .fieldRef first second | .methodRef first second | .interfaceMethodRef first second
  | .nameAndType first second | .dynamic first second | .invokeDynamic first second =>
    Bytes.ofUInt16 first ++ Bytes.ofUInt16 second
  | .methodHandle kind ref => [kind] ++ Bytes.ofUInt16 ref

def encode (c : Constant) : Bytes := [c.tag] ++ c.payload

/-- A text has to fit behind a two-byte length. -/
def Fits : Constant → Prop
  | .utf8 text => (ModifiedUtf8.encode text).length < 65536
  | _ => True

/-- The slots from slot one on: two for a wide constant, the second one empty. -/
def slots : List Constant → List (Option Constant)
  | [] => []
  | c :: cs => if c.isWide then some c :: none :: slots cs else some c :: slots cs

end Constant

/-- The pool of the given constants. -/
def Pool.ofConstants (constants : List Constant) : Pool :=
  { slots := (none :: Constant.slots constants).toArray }

/-! ## Annotations -/

/-- The kinds of annotation elements whose value is a constant. -/
inductive ConstantKind where
  | byte | char | double | float | int | long | short | boolean

/-- The letter that marks a kind. -/
def ConstantKind.tag : ConstantKind → UInt8
  | .byte => 0x42
  | .char => 0x43
  | .double => 0x44
  | .float => 0x46
  | .int => 0x49
  | .long => 0x4A
  | .short => 0x53
  | .boolean => 0x5A

/-- The value of an annotation's element as it is written. -/
inductive ElementLayout where
  | constant (kind : ConstantKind) (ref : SlotRef (Option Loadable))
  | text (ref : SlotRef String)
  | classInfo (ref : SlotRef String)
  | enumeration (type name : SlotRef String)
  | nested (type : SlotRef String) (elements : List (SlotRef String × ElementLayout))
  | array (items : List ElementLayout)

namespace ElementLayout

mutual

def encode : ElementLayout → Bytes
  | .constant kind ref => [kind.tag] ++ ref.encode
  | .text ref => [0x73] ++ ref.encode
  | .classInfo ref => [0x63] ++ ref.encode
  | .enumeration type name => [0x65] ++ (type.encode ++ name.encode)
  | .nested type elements =>
    [0x40] ++ (type.encode ++ (Bytes.ofNatBE 2 elements.length ++ encodeNamed elements))
  | .array items => [0x5B] ++ (Bytes.ofNatBE 2 items.length ++ encodeAll items)

def encodeNamed : List (SlotRef String × ElementLayout) → Bytes
  | [] => []
  | (name, e) :: rest => (name.encode ++ e.encode) ++ encodeNamed rest

def encodeAll : List ElementLayout → Bytes
  | [] => []
  | e :: rest => e.encode ++ encodeAll rest

end

mutual

/-- What an element says. Of a name that is repeated inside an annotation the last value counts. -/
def value : ElementLayout → Element
  | .constant _ ref => .constant ref.value
  | .text ref | .classInfo ref => .text ref.value
  | .enumeration type name => .enumeration type.value name.value
  | .nested type elements => .nested type.value (Assoc.keepLast (valueNamed elements))
  | .array items => .array (valueAll items)

def valueNamed : List (SlotRef String × ElementLayout) → List (String × Element)
  | [] => []
  | (name, e) :: rest => (name.value, e.value) :: valueNamed rest

def valueAll : List ElementLayout → List Element
  | [] => []
  | e :: rest => e.value :: valueAll rest

end

private theorem encodeNamed_eq (elements : List (SlotRef String × ElementLayout)) :
    encodeNamed elements = elements.flatMap fun q => q.1.encode ++ q.2.encode := by
  induction elements with
  | nil => rfl
  | cons q rest ih => rw [encodeNamed, ih, List.flatMap_cons]

private theorem encodeAll_eq (items : List ElementLayout) :
    encodeAll items = items.flatMap encode := by
  induction items with
  | nil => rfl
  | cons e rest ih => rw [encodeAll, ih, List.flatMap_cons]

private theorem valueNamed_eq (elements : List (SlotRef String × ElementLayout)) :
    valueNamed elements = elements.map fun q => (q.1.value, q.2.value) := by
  induction elements with
  | nil => rfl
  | cons q rest ih => rw [valueNamed, ih, List.map_cons]

private theorem valueAll_eq (items : List ElementLayout) : valueAll items = items.map value := by
  induction items with
  | nil => rfl
  | cons e rest ih => rw [valueAll, ih, List.map_cons]

theorem encode_array (items : List ElementLayout) :
    (array items).encode = [0x5B] ++ Bytes.counted encode items := by
  rw [encode, encodeAll_eq, Bytes.counted]

theorem value_array (items : List ElementLayout) :
    (array items).value = .array (items.map value) := by
  rw [value, valueAll_eq]

theorem exists_eq_succ {e : ElementLayout} {depth : Nat} (h : e.encode.length ≤ depth) :
    ∃ d, depth = d + 1 := by
  have hpos : 0 < e.encode.length := by cases e <;> simp [encode]
  exact Nat.exists_eq_add_one.mpr (by omega)

/-- The references in an element are well typed and its counts fit into two bytes. -/
inductive WellTyped (p : Pool) : ElementLayout → Prop
  | constant {kind : ConstantKind} {ref : SlotRef (Option Loadable)}
      (href : p.IsLoadable ref.slot ref.value) : WellTyped p (.constant kind ref)
  | text {ref : SlotRef String} (href : p.IsText ref.slot ref.value) : WellTyped p (.text ref)
  | classInfo {ref : SlotRef String} (href : p.IsText ref.slot ref.value) :
      WellTyped p (.classInfo ref)
  | enumeration {type name : SlotRef String} (htype : p.IsText type.slot type.value)
      (hname : p.IsText name.slot name.value) : WellTyped p (.enumeration type name)
  | nested {type : SlotRef String} {elements : List (SlotRef String × ElementLayout)}
      (htype : p.IsText type.slot type.value) (hlen : elements.length < 65536)
      (hnames : ∀ q ∈ elements, p.IsText q.1.slot q.1.value)
      (hvalues : ∀ q ∈ elements, WellTyped p q.2) : WellTyped p (.nested type elements)
  | array {items : List ElementLayout} (hlen : items.length < 65536)
      (hitems : ∀ e ∈ items, WellTyped p e) : WellTyped p (.array items)

end ElementLayout

/-- An annotation as it is written. -/
structure AnnotationLayout where
  type : SlotRef String
  elements : List (SlotRef String × ElementLayout)

namespace AnnotationLayout

def encode (a : AnnotationLayout) : Bytes :=
  a.type.encode ++ Bytes.counted (fun q => q.1.encode ++ q.2.encode) a.elements

def value (a : AnnotationLayout) : Annotation :=
  { type := a.type.value
    elements := Assoc.keepLast (a.elements.map fun q => (q.1.value, q.2.value)) }

/-- The same annotation as the value of an element. -/
def asElement (a : AnnotationLayout) : ElementLayout := .nested a.type a.elements

theorem encode_asElement (a : AnnotationLayout) : a.asElement.encode = [0x40] ++ a.encode := by
  rw [asElement, ElementLayout.encode, ElementLayout.encodeNamed_eq, encode, Bytes.counted]

theorem value_asElement (a : AnnotationLayout) :
    a.asElement.value = .nested a.value.type a.value.elements := by
  rw [asElement, ElementLayout.value, ElementLayout.valueNamed_eq, value]

theorem four_le_length_encode (a : AnnotationLayout) : 4 ≤ a.encode.length := by
  simp [encode, Bytes.counted]
  omega

end AnnotationLayout

/-! ## Attributes -/

/-- A bootstrap method as it is written. -/
structure BootstrapLayout where
  handle : SlotRef MethodHandle
  arguments : List (SlotRef (Option Loadable))

namespace BootstrapLayout

def encode (b : BootstrapLayout) : Bytes :=
  b.handle.encode ++ Bytes.counted SlotRef.encode b.arguments

def value (b : BootstrapLayout) : BootstrapMethod :=
  { handle := b.handle.value, arguments := b.arguments.map (·.value) }

structure WellTyped (p : Pool) (b : BootstrapLayout) : Prop where
  handle : p.IsLoadable b.handle.slot (some (.handle b.handle.value))
  length : b.arguments.length < 65536
  arguments : ∀ r ∈ b.arguments, p.IsLoadable r.slot r.value

end BootstrapLayout

/-- The range of instructions that an exception handler guards, where the handler starts, and the
slot of what it catches. -/
structure HandlerLayout where
  start : UInt16
  stop : UInt16
  handler : UInt16
  caught : UInt16

def HandlerLayout.encode (h : HandlerLayout) : Bytes :=
  Bytes.ofUInt16 h.start ++ Bytes.ofUInt16 h.stop ++ Bytes.ofUInt16 h.handler ++
    Bytes.ofUInt16 h.caught

/-- The slot of an attribute's name, the length of its body and the body. -/
def encodeAttribute (name : UInt16) (body : Bytes) : Bytes :=
  Bytes.ofUInt16 name ++ (Bytes.ofNatBE 4 body.length ++ body)

/-- A method's code as it is written, with its handlers and attributes of its own. -/
structure CodeLayout where
  maxStack : UInt16
  maxLocals : UInt16
  instructions : Bytes
  handlers : List HandlerLayout
  attributes : List (UInt16 × Bytes)

def CodeLayout.encode (c : CodeLayout) : Bytes :=
  (Bytes.ofUInt16 c.maxStack ++ (Bytes.ofUInt16 c.maxLocals ++
    (Bytes.ofNatBE 4 c.instructions.length ++ c.instructions))) ++
    (Bytes.counted HandlerLayout.encode c.handlers ++
      Bytes.counted (fun q => encodeAttribute q.1 q.2) c.attributes)

/-- What an attribute holds: one of the contents that a reader looks into, or any bytes. -/
inductive AttributeContent where
  | constantValue (ref : SlotRef (Option Loadable))
  | code (c : CodeLayout)
  | annotations (as : List AnnotationLayout)
  | bootstrapMethods (bs : List BootstrapLayout)
  | other (body : Bytes)

namespace AttributeContent

def body : AttributeContent → Bytes
  | .constantValue ref => ref.encode
  | .code c => c.encode
  | .annotations as => Bytes.counted AnnotationLayout.encode as
  | .bootstrapMethods bs => Bytes.counted BootstrapLayout.encode bs
  | .other bytes => bytes

def constantValue? : AttributeContent → Option (Option Loadable)
  | .constantValue ref => some ref.value
  | _ => none

def code? : AttributeContent → Option Bytes
  | .code c => some c.instructions
  | _ => none

def annotations? : AttributeContent → Option (List Annotation)
  | .annotations as => some (as.map (·.value))
  | _ => none

def bootstrapMethods? : AttributeContent → Option (List BootstrapMethod)
  | .bootstrapMethods bs => some (bs.map (·.value))
  | _ => none

/-- The content suits the attribute's name. Where an attribute with a reserved name is looked
into, no other content may have that name. -/
inductive WellTyped (p : Pool) (reserved : List String) : String → AttributeContent → Prop
  | constantValue {ref : SlotRef (Option Loadable)} (href : p.IsLoadable ref.slot ref.value) :
      WellTyped p reserved "ConstantValue" (.constantValue ref)
  | code {c : CodeLayout} : WellTyped p reserved "Code" (.code c)
  | annotations {as : List AnnotationLayout} (hlen : as.length < 65536)
      (has : ∀ a ∈ as, a.asElement.WellTyped p) :
      WellTyped p reserved "RuntimeVisibleAnnotations" (.annotations as)
  | bootstrapMethods {bs : List BootstrapLayout} (hlen : bs.length < 65536)
      (hbs : ∀ b ∈ bs, b.WellTyped p) :
      WellTyped p reserved "BootstrapMethods" (.bootstrapMethods bs)
  | other {name : String} {bytes : Bytes} (hname : name ∉ reserved) :
      WellTyped p reserved name (.other bytes)

end AttributeContent

/-- An attribute as it is written. -/
structure AttributeLayout where
  name : SlotRef String
  content : AttributeContent

namespace AttributeLayout

def encode (a : AttributeLayout) : Bytes := encodeAttribute a.name.slot a.content.body

structure WellTyped (p : Pool) (reserved : List String) (a : AttributeLayout) : Prop where
  name : p.IsText a.name.slot a.name.value
  length : a.content.body.length < 2 ^ 32
  content : a.content.WellTyped p reserved a.name.value

/-- The name and the body, which is all that a reader sees before it looks into the attribute. -/
def entry (a : AttributeLayout) : String × Bytes := (a.name.value, a.content.body)

/-- What the last attribute with a content of the wanted kind says. -/
def last? {β : Type} (pick : AttributeContent → Option β) (attributes : List AttributeLayout) :
    Option β :=
  (attributes.filterMap fun a => pick a.content).getLast?

theorem last?_cons {β : Type} (pick : AttributeContent → Option β) (a : AttributeLayout)
    (attributes : List AttributeLayout) :
    last? pick (a :: attributes) = (last? pick attributes).or (pick a.content) := by
  unfold last?
  cases h : pick a.content with
  | none => simp [h]
  | some x =>
    simp only [List.filterMap_cons, h, List.getLast?_cons]
    cases (attributes.filterMap fun a => pick a.content).getLast? <;> rfl

end AttributeLayout

/-! ## Members and classes -/

/-- A field or a method as it is written. -/
structure MemberLayout where
  access : UInt16
  name : SlotRef String
  descriptor : SlotRef String
  attributes : List AttributeLayout

namespace MemberLayout

def encode (m : MemberLayout) : Bytes :=
  Bytes.ofUInt16 m.access ++ (m.name.encode ++ (m.descriptor.encode ++
    Bytes.counted AttributeLayout.encode m.attributes))

def field (m : MemberLayout) : Field :=
  { access := m.access
    name := m.name.value
    descriptor := m.descriptor.value
    constant := (AttributeLayout.last? AttributeContent.constantValue? m.attributes).getD none }

def method (m : MemberLayout) : Method :=
  { access := m.access
    name := m.name.value
    descriptor := m.descriptor.value
    code := AttributeLayout.last? AttributeContent.code? m.attributes
    annotations := (AttributeLayout.last? AttributeContent.annotations? m.attributes).getD [] }

structure WellTyped (p : Pool) (reserved : List String) (m : MemberLayout) : Prop where
  name : p.IsText m.name.slot m.name.value
  descriptor : p.IsText m.descriptor.slot m.descriptor.value
  length : m.attributes.length < 65536
  attributes : ∀ a ∈ m.attributes, a.WellTyped p reserved

end MemberLayout

/-- A class as it is written. -/
structure ClassLayout where
  minor : UInt16
  major : UInt16
  constants : List Constant
  access : UInt16
  name : SlotRef String
  superName : Option (SlotRef String)
  interfaces : List UInt16
  fields : List MemberLayout
  methods : List MemberLayout
  attributes : List AttributeLayout

namespace ClassLayout

def pool (c : ClassLayout) : Pool := Pool.ofConstants c.constants

/-- The number of slots, slot zero included, and the constants. -/
def encodePool (constants : List Constant) : Bytes :=
  Bytes.ofNatBE 2 ((Constant.slots constants).length + 1) ++ constants.flatMap Constant.encode

/-- The slot of the super class; a class without one names slot zero. -/
def superSlot (c : ClassLayout) : UInt16 := (c.superName.map (·.slot)).getD 0

/-- The class in a file. -/
def encode (c : ClassLayout) : Bytes :=
  Bytes.ofUInt32 0xCAFEBABE ++ (Bytes.ofUInt16 c.minor ++ (Bytes.ofUInt16 c.major ++
    (encodePool c.constants ++ (Bytes.ofUInt16 c.access ++ (c.name.encode ++
      (Bytes.ofUInt16 c.superSlot ++ (Bytes.counted Bytes.ofUInt16 c.interfaces ++
        (Bytes.counted MemberLayout.encode c.fields ++
          (Bytes.counted MemberLayout.encode c.methods ++
            Bytes.counted AttributeLayout.encode c.attributes)))))))))

/-- The class itself. -/
def value (c : ClassLayout) : ClassFile :=
  { name := c.name.value
    superName := c.superName.map (·.value)
    pool := c.pool
    fields := c.fields.map (·.field)
    methods := c.methods.map (·.method)
    annotations := (AttributeLayout.last? AttributeContent.annotations? c.attributes).getD []
    bootstrapMethods :=
      (AttributeLayout.last? AttributeContent.bootstrapMethods? c.attributes).getD [] }

/-- Every reference is well typed, every count and length fits, and the names of the attributes
that are looked into at a place are not given to others there. -/
structure WellFormed (c : ClassLayout) : Prop where
  constants : ∀ k ∈ c.constants, k.Fits
  slots : (Constant.slots c.constants).length + 1 < 65536
  name : c.pool.IsClass c.name.slot c.name.value
  superName : ∀ r ∈ c.superName, c.pool.IsClass r.slot r.value
  interfaces : c.interfaces.length < 65536
  fieldCount : c.fields.length < 65536
  fields : ∀ m ∈ c.fields, m.WellTyped c.pool ["ConstantValue"]
  methodCount : c.methods.length < 65536
  methods : ∀ m ∈ c.methods, m.WellTyped c.pool ["Code", "RuntimeVisibleAnnotations"]
  attributeCount : c.attributes.length < 65536
  attributes : ∀ a ∈ c.attributes,
    a.WellTyped c.pool ["BootstrapMethods", "RuntimeVisibleAnnotations"]

end ClassLayout

end EndpointAudit
