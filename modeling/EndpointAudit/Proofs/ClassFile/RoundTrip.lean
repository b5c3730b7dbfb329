import EndpointAudit.Proofs.ClassFile.Layout

/-!
# Class files are read as they are written

Every production of the layout is accepted by its reader with exactly its own bytes, from the
constants of the pool up to the class, so a well-formed class is read back from its file.
-/

namespace EndpointAudit

open Reader ClassFile

/-! ## The pool -/

private theorem reads_readText {text : String} (h : (ModifiedUtf8.encode text).length < 65536) :
    Reads readText
      (Bytes.ofNatBE 2 (ModifiedUtf8.encode text).length ++ ModifiedUtf8.encode text) text := by
  refine (reads_length h).bind ?_
  rw [UInt16.toNat_ofNat_of_lt' h]
  refine (reads_take rfl).bind_nil ?_
  rw [ModifiedUtf8.decode_encode]
  exact reads_pure text

private theorem reads_pair {α : Type} (f : UInt16 → UInt16 → α) (first second : UInt16) :
    Reads (do return f (← u2) (← u2)) (Bytes.ofUInt16 first ++ Bytes.ofUInt16 second)
      (f first second) :=
  (reads_u2 first).bind ((reads_u2 second).bind_pure (f first))

private theorem reads_readConstant {c : Constant} (h : c.Fits) (slot : Nat) :
    Reads (readConstant slot) c.encode c := by
  refine (reads_u1 c.tag).bind ?_
  cases c with
  | utf8 text => exact (reads_readText h).bind_pure Constant.utf8
  | integer value => exact (reads_u4 value.toUInt32).bind_pure fun n => Constant.integer n.toInt32
  | float bits => exact (reads_u4 bits).bind_pure Constant.float
  | long value => exact (reads_u8 value.toUInt64).bind_pure fun n => Constant.long n.toInt64
  | double bits => exact (reads_u8 bits).bind_pure Constant.double
  | classRef slot => exact (reads_u2 slot).bind_pure Constant.classRef
  | string slot => exact (reads_u2 slot).bind_pure Constant.string
  | methodType slot => exact (reads_u2 slot).bind_pure Constant.methodType
  | moduleName slot => exact (reads_u2 slot).bind_pure Constant.moduleName
  | packageName slot => exact (reads_u2 slot).bind_pure Constant.packageName
  | fieldRef first second => exact reads_pair Constant.fieldRef first second
  | methodRef first second => exact reads_pair Constant.methodRef first second
  | interfaceMethodRef first second => exact reads_pair Constant.interfaceMethodRef first second
  | nameAndType first second => exact reads_pair Constant.nameAndType first second
  | dynamic first second => exact reads_pair Constant.dynamic first second
  | invokeDynamic first second => exact reads_pair Constant.invokeDynamic first second
  | methodHandle kind ref =>
    exact (reads_u1 kind).bind ((reads_u2 ref).bind_pure (Constant.methodHandle kind))

private theorem reads_readSlots (constants : List Constant) (h : ∀ c ∈ constants, c.Fits)
    (slot : Nat) :
    Reads (readSlots (Constant.slots constants).length slot)
      (constants.flatMap Constant.encode) (Constant.slots constants) := by
  induction constants generalizing slot with
  | nil => exact reads_pure []
  | cons c cs ih =>
    have hc := reads_readConstant (h c (by simp)) slot
    have hrest := ih fun k hk => h k (by simp [hk])
    -- A wide constant is followed by a slot that no bytes stand for.
    cases hwide : c.isWide with
    | true =>
      rw [Constant.slots, if_pos hwide, List.length_cons, List.length_cons, readSlots]
      refine hc.bind ?_
      simp only [hwide, if_true]
      exact (hrest (slot + 2)).bind_pure (some c :: none :: ·)
    | false =>
      rw [Constant.slots, if_neg (by simp [hwide]), List.length_cons, readSlots]
      refine hc.bind ?_
      simp only [hwide, Bool.false_eq_true, if_false]
      exact (hrest (slot + 1)).bind_pure (some c :: ·)

private theorem reads_readPool (constants : List Constant) (h : ∀ c ∈ constants, c.Fits)
    (hlen : (Constant.slots constants).length + 1 < 65536) :
    Reads readPool (ClassLayout.encodePool constants) (Pool.ofConstants constants) := by
  refine (reads_length hlen).bind ?_
  rw [UInt16.toNat_ofNat_of_lt' hlen]
  exact (reads_readSlots constants h 1).bind_pure fun slots => Pool.mk (none :: slots).toArray

/-! ## Annotations -/

section

variable {p : Pool} (typeName : String)

theorem reads_resolved {α : Type} {found : Except Pool.Fault α} {value : α}
    (h : found = .ok value) : Reads (resolved typeName found) [] value := by
  subst h
  exact reads_check rfl

theorem reads_readTextRef {r : SlotRef String} (h : p.IsText r.slot r.value) :
    Reads (readTextRef p typeName) r.encode r.value :=
  (reads_u2 r.slot).bind_nil (reads_resolved typeName h.utf8)

theorem reads_readLoadableRef {r : SlotRef (Option Loadable)}
    (h : p.IsLoadable r.slot r.value) : Reads (readLoadableRef p typeName) r.encode r.value :=
  (reads_u2 r.slot).bind_nil (reads_resolved typeName h.loadable)

private theorem isConstantTag_tag (kind : ConstantKind) :
    (kind.tag = 0x73 || kind.tag = 0x63) = false ∧ isConstantTag kind.tag = true := by
  cases kind <;> decide

/-- An annotation is read if its elements are, each at every depth that its length allows. -/
theorem reads_annotationReader {a : AnnotationLayout} {d : Nat}
    (htype : p.IsText a.type.slot a.type.value) (hlen : a.elements.length < 65536)
    (hnames : ∀ q ∈ a.elements, p.IsText q.1.slot q.1.value)
    (hvalues : ∀ q ∈ a.elements, ∀ d, q.2.encode.length ≤ d →
      Reads (readElement p typeName d) q.2.encode q.2.value)
    (hd : a.encode.length ≤ d + 1) :
    Reads (annotationReader p typeName (d + 1)) a.encode a.value := by
  rw [annotationReader]
  refine (reads_readTextRef typeName htype).bind ?_
  have hone : ∀ q ∈ a.elements,
      Reads (do
        let name ← readTextRef p typeName
        return (name, ← readElement p typeName d))
        (q.1.encode ++ q.2.encode) (q.1.value, q.2.value) := by
    intro q hq
    have hq_len := Bytes.length_le_counted (fun q => q.1.encode ++ q.2.encode) hq
    have hq_d : q.2.encode.length ≤ d := by
      simp only [List.length_append, AnnotationLayout.encode] at hq_len hd
      omega
    refine (reads_readTextRef typeName (hnames q hq)).bind ?_
    exact (hvalues q hq d hq_d).bind_pure (q.1.value, ·)
  have hall := reads_counted a.elements hlen hone
  have hread := hall.bind_pure fun elements : List (String × Element) =>
    Annotation.mk a.type.value (elements.foldl (fun es entry => Assoc.put entry.1 entry.2 es) [])
  rw [Assoc.foldl_put_eq_keepLast] at hread
  exact hread

/-- An element is read at every depth that is not below its length. -/
theorem reads_readElement {e : ElementLayout} (h : e.WellTyped p) :
    ∀ depth, e.encode.length ≤ depth → Reads (readElement p typeName depth) e.encode e.value := by
  induction h with
  | @constant kind ref href =>
    intro depth hdepth
    obtain ⟨d, rfl⟩ := ElementLayout.exists_eq_succ hdepth
    obtain ⟨htext, hconstant⟩ := isConstantTag_tag kind
    rw [readElement]
    refine (reads_u1 kind.tag).bind ?_
    rw [if_neg (by simp [htext]), if_pos hconstant]
    exact (reads_readLoadableRef typeName href).bind_pure Element.constant
  | text href | classInfo href =>
    intro depth hdepth
    obtain ⟨d, rfl⟩ := ElementLayout.exists_eq_succ hdepth
    rw [readElement]
    refine (reads_u1 _).bind ?_
    exact (reads_readTextRef typeName href).bind_pure Element.text
  | @enumeration type name htype hname =>
    intro depth hdepth
    obtain ⟨d, rfl⟩ := ElementLayout.exists_eq_succ hdepth
    rw [readElement]
    refine (reads_u1 0x65).bind ?_
    refine (reads_readTextRef typeName htype).bind ?_
    exact (reads_readTextRef typeName hname).bind_pure (Element.enumeration type.value)
  | @nested type elements htype hlen hnames hvalues ih =>
    intro depth hdepth
    let a : AnnotationLayout := ⟨type, elements⟩
    obtain ⟨d, rfl⟩ := ElementLayout.exists_eq_succ hdepth
    change Reads _ a.asElement.encode a.asElement.value
    change a.asElement.encode.length ≤ _ at hdepth
    rw [a.encode_asElement] at hdepth ⊢
    rw [a.value_asElement]
    -- The tag takes one level and the annotation behind it another.
    have hfour := a.four_le_length_encode
    obtain ⟨d, rfl⟩ : ∃ n, d = n + 1 := ⟨d - 1, by simp at hdepth; omega⟩
    have ha := reads_annotationReader typeName htype hlen hnames ih
      (show a.encode.length ≤ d + 1 by simp at hdepth; omega)
    rw [readElement]
    refine (reads_u1 0x40).bind ?_
    exact ha.bind_pure fun a => Element.nested a.type a.elements
  | @array items hlen hitems ih =>
    intro depth hdepth
    obtain ⟨d, rfl⟩ := ElementLayout.exists_eq_succ hdepth
    rw [ElementLayout.encode_array] at hdepth ⊢
    rw [ElementLayout.value_array, readElement]
    have hall : Reads (counted (readElement p typeName d))
        (Bytes.counted ElementLayout.encode items) (items.map ElementLayout.value) := by
      apply reads_counted items hlen
      intro e he
      have he_len := Bytes.length_le_counted ElementLayout.encode he
      apply ih e he
      simp only [List.length_append, List.length_singleton] at hdepth
      omega
    refine (reads_u1 0x5B).bind ?_
    exact hall.bind_pure Element.array

/-! ## Attributes -/

theorem annotationsIn_encode {as : List AnnotationLayout} (hlen : as.length < 65536)
    (has : ∀ a ∈ as, a.asElement.WellTyped p) :
    annotationsIn p typeName (Bytes.counted AnnotationLayout.encode as) =
      .ok (as.map (·.value)) := by
  refine (reads_counted as hlen ?_).front
  intro a ha
  have ha_len := Bytes.length_le_counted AnnotationLayout.encode ha
  have ha_typed := has a ha
  rw [AnnotationLayout.asElement] at ha_typed
  cases ha_typed with
  | nested htype hlen hnames hvalues =>
    refine reads_annotationReader typeName htype hlen hnames ?_ (by omega)
    exact fun q hq => reads_readElement typeName (hvalues q hq)

private theorem codeIn_encode {c : CodeLayout} (h : c.encode.length < 2 ^ 32) :
    codeIn c.encode = .ok c.instructions := by
  have hlen : c.instructions.length < 2 ^ 32 := by
    simp only [CodeLayout.encode, List.length_append] at h
    omega
  have hread : Reads codeIn.readCode (Bytes.ofUInt16 c.maxStack ++ (Bytes.ofUInt16 c.maxLocals ++
      (Bytes.ofNatBE 4 c.instructions.length ++ c.instructions))) c.instructions := by
    refine (reads_u2 c.maxStack).bind ((reads_u2 c.maxLocals).bind ?_)
    refine (reads_longLength hlen).bind (reads_take ?_)
    rw [UInt32.toNat_ofNat_of_lt' hlen]
  exact hread.front_append _

private theorem reads_readBootstrapMethod {b : BootstrapLayout} (h : b.WellTyped p) :
    Reads (readBootstrapMethod p typeName) b.encode b.value := by
  have hhandle := reads_readLoadableRef typeName
    (show p.IsLoadable (SlotRef.mk b.handle.slot _).slot _ from h.handle)
  have harguments := reads_counted b.arguments h.length fun r hr =>
    reads_readLoadableRef typeName (h.arguments r hr)
  refine hhandle.bind ?_
  exact harguments.bind_pure fun arguments => BootstrapMethod.mk b.handle.value arguments

theorem reads_readAttribute {reserved : List String} {a : AttributeLayout}
    (h : a.WellTyped p reserved) : Reads (readAttribute p typeName) a.encode a.entry := by
  refine (reads_readTextRef typeName h.name).bind ?_
  refine (reads_longLength h.length).bind ?_
  rw [UInt32.toNat_ofNat_of_lt' h.length]
  exact (reads_take rfl).bind_pure (a.name.value, ·)

private theorem addFieldAttribute_entry {a : AttributeLayout} (h : a.WellTyped p ["ConstantValue"])
    (field : Field) :
    addFieldAttribute p typeName field a.entry =
      .ok { field with constant := a.content.constantValue?.getD field.constant } := by
  obtain ⟨⟨slot, name⟩, content⟩ := a
  cases h.content with
  | @constantValue ref href =>
    have hread := (reads_readLoadableRef typeName href).front
    change (front _ ref.encode >>= fun c => pure { field with constant := c }) = _
    rw [hread]
    rfl
  | code | annotations | bootstrapMethods => rfl
  | other hname =>
    have hne : name ≠ "ConstantValue" := by simpa using hname
    exact if_neg hne

private theorem addMethodAttribute_entry {a : AttributeLayout}
    (h : a.WellTyped p ["Code", "RuntimeVisibleAnnotations"]) (method : Method) :
    addMethodAttribute p typeName method a.entry =
      .ok { method with
        code := a.content.code?.or method.code
        annotations := a.content.annotations?.getD method.annotations } := by
  obtain ⟨⟨slot, name⟩, content⟩ := a
  cases h.content with
  | constantValue | bootstrapMethods => rfl
  | @code c =>
    change (codeIn c.encode >>= fun c => pure { method with code := some c }) = _
    rw [codeIn_encode h.length]
    rfl
  | @annotations as hlen has =>
    change (annotationsIn p typeName (Bytes.counted AnnotationLayout.encode as) >>= fun as =>
      pure { method with annotations := as }) = _
    rw [annotationsIn_encode typeName hlen has]
    rfl
  | other hname =>
    obtain ⟨hcode, hannotations⟩ : name ≠ "Code" ∧ name ≠ "RuntimeVisibleAnnotations" := by
      simpa using hname
    exact (if_neg hcode).trans (if_neg hannotations)

private theorem addClassAttribute_entry {cls : ClassFile} {a : AttributeLayout}
    (h : a.WellTyped cls.pool ["BootstrapMethods", "RuntimeVisibleAnnotations"]) :
    addClassAttribute cls a.entry =
      .ok { cls with
        bootstrapMethods := a.content.bootstrapMethods?.getD cls.bootstrapMethods
        annotations := a.content.annotations?.getD cls.annotations } := by
  obtain ⟨⟨slot, name⟩, content⟩ := a
  cases h.content with
  | constantValue | code => rfl
  | @bootstrapMethods bs hlen hbs =>
    have hread := reads_counted bs hlen fun b hb =>
      reads_readBootstrapMethod cls.typeName (hbs b hb)
    change (front _ (Bytes.counted BootstrapLayout.encode bs) >>= fun bs =>
      pure { cls with bootstrapMethods := bs }) = _
    rw [hread.front]
    rfl
  | @annotations as hlen has =>
    change (annotationsIn _ _ (Bytes.counted AnnotationLayout.encode as) >>= fun as =>
      pure { cls with annotations := as }) = _
    rw [annotationsIn_encode cls.typeName hlen has]
    rfl
  | other hname =>
    obtain ⟨hbootstrap, hannotations⟩ :
        name ≠ "BootstrapMethods" ∧ name ≠ "RuntimeVisibleAnnotations" := by
      simpa using hname
    exact (if_neg hbootstrap).trans (if_neg hannotations)

/-! ## Members -/

private theorem foldlM_addFieldAttribute {attributes : List AttributeLayout}
    (h : ∀ a ∈ attributes, a.WellTyped p ["ConstantValue"]) (field : Field) :
    (attributes.map AttributeLayout.entry).foldlM (addFieldAttribute p typeName) field =
      .ok { field with
        constant := (AttributeLayout.last? AttributeContent.constantValue? attributes).getD
          field.constant } := by
  induction attributes generalizing field with
  | nil => rfl
  | cons a rest ih =>
    rw [List.map_cons, List.foldlM_cons, addFieldAttribute_entry typeName (h a (by simp))]
    refine (ih (fun b hb => h b (by simp [hb])) _).trans ?_
    rw [AttributeLayout.last?_cons, Option.getD_or]

private theorem foldlM_addMethodAttribute {attributes : List AttributeLayout}
    (h : ∀ a ∈ attributes, a.WellTyped p ["Code", "RuntimeVisibleAnnotations"])
    (method : Method) :
    (attributes.map AttributeLayout.entry).foldlM (addMethodAttribute p typeName) method =
      .ok { method with
        code := (AttributeLayout.last? AttributeContent.code? attributes).or method.code
        annotations := (AttributeLayout.last? AttributeContent.annotations? attributes).getD
          method.annotations } := by
  induction attributes generalizing method with
  | nil => rfl
  | cons a rest ih =>
    rw [List.map_cons, List.foldlM_cons, addMethodAttribute_entry typeName (h a (by simp))]
    refine (ih (fun b hb => h b (by simp [hb])) _).trans ?_
    rw [AttributeLayout.last?_cons, AttributeLayout.last?_cons, Option.getD_or, Option.or_assoc]

private theorem foldlM_addClassAttribute {attributes : List AttributeLayout} (cls : ClassFile)
    (h : ∀ a ∈ attributes,
      a.WellTyped cls.pool ["BootstrapMethods", "RuntimeVisibleAnnotations"]) :
    (attributes.map AttributeLayout.entry).foldlM addClassAttribute cls =
      .ok { cls with
        bootstrapMethods :=
          (AttributeLayout.last? AttributeContent.bootstrapMethods? attributes).getD
            cls.bootstrapMethods
        annotations := (AttributeLayout.last? AttributeContent.annotations? attributes).getD
          cls.annotations } := by
  induction attributes generalizing cls with
  | nil => rfl
  | cons a rest ih =>
    rw [List.map_cons, List.foldlM_cons, addClassAttribute_entry (h a (by simp))]
    let next : ClassFile := { cls with
      bootstrapMethods := a.content.bootstrapMethods?.getD cls.bootstrapMethods
      annotations := a.content.annotations?.getD cls.annotations }
    refine (ih next fun b hb => h b (by simp [hb])).trans ?_
    rw [AttributeLayout.last?_cons, AttributeLayout.last?_cons, Option.getD_or, Option.getD_or]

/-- What fields and methods have in common: all attributes are read before the first is added. -/
theorem reads_member {α : Type} {reserved : List String} {m : MemberLayout}
    (h : m.WellTyped p reserved) (add : α → String × Bytes → Except ClassError α)
    (start : UInt16 → String → String → α) {value : α}
    (hadd : (m.attributes.map AttributeLayout.entry).foldlM add
      (start m.access m.name.value m.descriptor.value) = .ok value) :
    Reads (do
      let access ← u2
      let nameSlot ← u2
      let descriptorSlot ← u2
      let name ← resolved typeName (p.utf8 nameSlot.toNat)
      let descriptor ← resolved typeName (p.utf8 descriptorSlot.toNat)
      let attributes ← counted (readAttribute p typeName)
      check (attributes.foldlM add (start access name descriptor))) m.encode value := by
  have hattributes := reads_counted m.attributes h.length fun a ha =>
    reads_readAttribute typeName (h.attributes a ha)
  refine (reads_u2 m.access).bind ((reads_u2 m.name.slot).bind ?_)
  refine (reads_u2 m.descriptor.slot).bind ?_
  refine (reads_resolved typeName h.name.utf8).nil_bind ?_
  refine (reads_resolved typeName h.descriptor.utf8).nil_bind ?_
  exact hattributes.bind_nil (reads_check hadd)

private theorem reads_readField {m : MemberLayout} (h : m.WellTyped p ["ConstantValue"]) :
    Reads (readField p typeName) m.encode m.field :=
  reads_member typeName h (addFieldAttribute p typeName)
    (fun access name descriptor => { access, name, descriptor })
    (foldlM_addFieldAttribute typeName h.attributes _)

private theorem reads_readMethod {m : MemberLayout}
    (h : m.WellTyped p ["Code", "RuntimeVisibleAnnotations"]) :
    Reads (readMethod p typeName) m.encode m.method := by
  have hadd := foldlM_addMethodAttribute typeName h.attributes
    { access := m.access, name := m.name.value, descriptor := m.descriptor.value }
  rw [Option.or_none] at hadd
  exact reads_member typeName h (addMethodAttribute p typeName)
    (fun access name descriptor => { access, name, descriptor }) hadd

end

/-! ## Classes -/

namespace ClassLayout

private theorem reads_superName {c : ClassLayout} (h : c.WellFormed) (typeName : String) {α : Type}
    {next : Option String → Reader α} {bytes : Bytes} {value : α}
    (hnext : Reads (next (c.superName.map (·.value))) bytes value) :
    Reads (if c.superSlot = 0 then pure none >>= next
      else some <$> resolved typeName (c.pool.className c.superSlot.toNat) >>= next)
      bytes value := by
  cases hsuper : c.superName with
  | none =>
    have hslot : c.superSlot = 0 := by rw [superSlot, hsuper]; rfl
    rw [hsuper] at hnext
    rw [if_pos hslot]
    exact (reads_pure none).nil_bind hnext
  | some r =>
    have hr := h.superName r hsuper
    have hslot : c.superSlot = r.slot := by rw [superSlot, hsuper]; rfl
    have hne : r.slot ≠ 0 := by
      obtain ⟨text, hholds, -⟩ := hr
      intro hzero
      have hpos := hholds.1
      rw [hzero] at hpos
      exact absurd hpos (by decide)
    rw [hsuper] at hnext
    rw [hslot, if_neg hne]
    exact ((reads_resolved typeName hr.className).bind_pure some).nil_bind hnext

theorem reads_reader {c : ClassLayout} (h : c.WellFormed) :
    Reads reader c.encode c.value := by
  have hinterfaces := reads_counted c.interfaces h.interfaces fun n _ => reads_u2 n
  have hfields := reads_counted c.fields h.fieldCount fun m hm =>
    reads_readField (Naming.dotted c.name.value) (h.fields m hm)
  have hmethods := reads_counted c.methods h.methodCount fun m hm =>
    reads_readMethod (Naming.dotted c.name.value) (h.methods m hm)
  have hattributes := reads_counted c.attributes h.attributeCount fun a ha =>
    reads_readAttribute (Naming.dotted c.name.value) (h.attributes a ha)
  refine (reads_u4 0xCAFEBABE).bind ?_
  refine (reads_u2 c.minor).bind ((reads_u2 c.major).bind ?_)
  refine (reads_readPool c.constants h.constants h.slots).bind ?_
  refine (reads_u2 c.access).bind ((reads_u2 c.name.slot).bind ((reads_u2 c.superSlot).bind ?_))
  refine hinterfaces.bind ?_
  refine (reads_resolved "" h.name.className).nil_bind ?_
  refine reads_superName h _ ?_
  refine hfields.bind (hmethods.bind (hattributes.bind_nil (reads_check ?_)))
  exact foldlM_addClassAttribute _ h.attributes

/-- A well-formed class is read back from its file. -/
theorem parse_encode {c : ClassLayout} (h : c.WellFormed) :
    ClassFile.parse c.encode = .ok c.value :=
  (reads_reader h).front

/-- A class with a wide constant in its pool, an unknown attribute in front of a field's constant,
an annotation element that is given twice, and a bootstrap method. -/
def limited : ClassLayout where
  minor := 0
  major := 61
  constants := [.utf8 "a/B", .classRef 1, .utf8 "java/lang/Object", .classRef 3, .long 7,
    .utf8 "LIMIT", .utf8 "J", .utf8 "ConstantValue", .utf8 "Deprecated", .utf8 "run", .utf8 "()V",
    .utf8 "Code", .utf8 "RuntimeVisibleAnnotations", .utf8 "La/C;", .utf8 "value",
    .utf8 "BootstrapMethods", .nameAndType 11 12, .methodRef 2 18, .methodHandle 6 19]
  access := 0x21
  name := ⟨2, "a/B"⟩
  superName := some ⟨4, "java/lang/Object"⟩
  interfaces := [4]
  fields := [⟨0x18, ⟨7, "LIMIT"⟩, ⟨8, "J"⟩, [⟨⟨10, "Deprecated"⟩, .other [0xFF, 0]⟩,
    ⟨⟨9, "ConstantValue"⟩, .constantValue ⟨5, some (.number 7)⟩⟩]⟩]
  methods := [⟨9, ⟨11, "run"⟩, ⟨12, "()V"⟩, [⟨⟨13, "Code"⟩, .code ⟨0, 0, [0xB1], [], []⟩⟩,
    ⟨⟨14, "RuntimeVisibleAnnotations"⟩, .annotations [⟨⟨15, "La/C;"⟩, [(⟨16, "value"⟩,
      .nested ⟨15, "La/C;"⟩ []), (⟨16, "value"⟩, .array [.text ⟨7, "LIMIT"⟩])]⟩]⟩]⟩]
  attributes := [⟨⟨17, "BootstrapMethods"⟩, .bootstrapMethods
    [⟨⟨20, ⟨6, "a/B", "run", "()V"⟩⟩, [⟨5, some (.number 7)⟩]⟩]⟩]

theorem wellFormed_limited : limited.WellFormed := by
  have hclass : limited.pool.IsClass 2 "a/B" := ⟨1, by decide, by decide⟩
  have hlong : limited.pool.IsLoadable 5 (some (.number 7)) :=
    .long (show limited.pool.Holds 5 (.long 7) by decide)
  have hpair : limited.pool.IsNameAndType 18 "run" "()V" :=
    ⟨11, 12, by decide, by decide, by decide⟩
  have hrun : limited.pool.IsMember 19 ⟨"a/B", "run", "()V"⟩ := .method (by decide) hclass hpair
  have hannotation : (AnnotationLayout.asElement ⟨⟨15, "La/C;"⟩, [(⟨16, "value"⟩,
      .nested ⟨15, "La/C;"⟩ []), (⟨16, "value"⟩, .array [.text ⟨7, "LIMIT"⟩])]⟩).WellTyped
      limited.pool := by
    have hfirst : (ElementLayout.nested ⟨15, "La/C;"⟩ []).WellTyped limited.pool :=
      .nested (by decide) (by decide) (by simp) (by simp)
    have hsecond : (ElementLayout.array [.text ⟨7, "LIMIT"⟩]).WellTyped limited.pool :=
      .array (by decide) (List.forall_mem_singleton.mpr (.text (by decide)))
    exact .nested (by decide) (by decide) (by decide)
      (List.forall_mem_cons.mpr ⟨hfirst, List.forall_mem_singleton.mpr hsecond⟩)
  constructor
  case constants => simp [limited, Constant.Fits]; decide
  case name => exact hclass
  case superName => simp [limited]; exact ⟨3, by decide, by decide⟩
  case fields =>
    refine List.forall_mem_singleton.mpr ⟨by decide, by decide, by decide, ?_⟩
    exact List.forall_mem_cons.mpr ⟨⟨by decide, by decide, .other (by decide)⟩,
      List.forall_mem_singleton.mpr ⟨by decide, by decide, .constantValue hlong⟩⟩
  case methods =>
    refine List.forall_mem_singleton.mpr ⟨by decide, by decide, by decide, ?_⟩
    exact List.forall_mem_cons.mpr ⟨⟨by decide, by decide, .code⟩,
      List.forall_mem_singleton.mpr ⟨by decide, by decide,
        .annotations (by decide) (List.forall_mem_singleton.mpr hannotation)⟩⟩
  case attributes =>
    refine List.forall_mem_singleton.mpr ⟨by decide, by decide, .bootstrapMethods (by decide) ?_⟩
    exact List.forall_mem_singleton.mpr
      ⟨.handle (by decide) hrun, by decide, List.forall_mem_singleton.mpr hlong⟩
  all_goals decide

theorem parse_encode_limited :
    limited.WellFormed ∧ ClassFile.parse limited.encode = .ok limited.value :=
  ⟨wellFormed_limited, parse_encode wellFormed_limited⟩

end ClassLayout

end EndpointAudit
