import EndpointAudit.ClassFile.Basic
import EndpointAudit.ClassFile.ModifiedUtf8
import EndpointAudit.Text.Quoted

/-!
# Reading class files

A reader takes what it needs from the front of a byte string and leaves the rest. Members and
attributes are read in file order, and the first thing that cannot be read decides the error.
Attributes that the analysis has no use for are skipped by their length, and bytes behind the class
are ignored.
-/

namespace EndpointAudit

/-- The wording of an error. Bytes that make no sense are told with the words of whoever noticed, if
there are any. -/
def ClassError.message (words : Option String := none) : ClassError → String
  | .malformed => Text.withWords "malformed class file" words
  | .badMagic => "not a class file (bad magic)"
  | .unknownTag tag slot => s!"unknown constant pool tag {tag} at index {slot}"
  | .pool typeName (.index slot) => s!"invalid constant pool index {slot} in {typeName}"
  | .pool typeName (.tag slot tag) => s!"constant {slot} in {typeName} has unexpected tag {tag}"
  | .bootstrapHandle => "bootstrap method is not a MethodHandle"
  | .unknownElement tag =>
    "unknown annotation element tag " ++ Text.quoted (String.singleton (Char.ofNat tag.toNat))

abbrev Reader := StateT Bytes (Except ClassError)

namespace Reader

def take (n : Nat) : Reader Bytes := fun bytes =>
  let taken := bytes.take n
  if taken.length = n then .ok (taken, bytes.drop n) else .error .malformed

/-- The number in the next `n` bytes, the most significant byte first. -/
def number (n : Nat) : Reader Nat := do
  return Bytes.toNatBE (← take n)

def u1 : Reader UInt8 := do return UInt8.ofNat (← number 1)

def u2 : Reader UInt16 := do return UInt16.ofNat (← number 2)

def u4 : Reader UInt32 := do return UInt32.ofNat (← number 4)

def u8 : Reader UInt64 := do return UInt64.ofNat (← number 8)

def times {α : Type} (read : Reader α) : Nat → Reader (List α)
  | 0 => return []
  | n + 1 => do
    let first ← read
    let rest ← times read n
    return first :: rest

/-- Reads a two-byte count and then as many values. -/
def counted {α : Type} (read : Reader α) : Reader (List α) := do
  let n ← u2
  times read n.toNat

/-- A value that has been found without reading, or the error in its place. -/
def check {α : Type} (found : Except ClassError α) : Reader α := fun bytes =>
  found.map (·, bytes)

def front {α : Type} (read : Reader α) (bytes : Bytes) : Except ClassError α :=
  (read bytes).map (·.1)

end Reader

namespace ClassFile

open Reader

/-- The text in the next bytes, behind a two-byte length. -/
def readText : Reader String := do
  let length ← u2
  let bytes ← take length.toNat
  match ModifiedUtf8.decode bytes with
  | some text => return text
  | none => throw .malformed

def readConstant (slot : Nat) : Reader Constant := do
  let tag ← u1
  match tag with
  | 1 => return .utf8 (← readText)
  | 3 => return .integer (← u4).toInt32
  | 4 => return .float (← u4)
  | 5 => return .long (← u8).toInt64
  | 6 => return .double (← u8)
  | 7 => return .classRef (← u2)
  | 8 => return .string (← u2)
  | 9 => return .fieldRef (← u2) (← u2)
  | 10 => return .methodRef (← u2) (← u2)
  | 11 => return .interfaceMethodRef (← u2) (← u2)
  | 12 => return .nameAndType (← u2) (← u2)
  | 15 => return .methodHandle (← u1) (← u2)
  | 16 => return .methodType (← u2)
  | 17 => return .dynamic (← u2) (← u2)
  | 18 => return .invokeDynamic (← u2) (← u2)
  | 19 => return .moduleName (← u2)
  | 20 => return .packageName (← u2)
  | tag => throw (.unknownTag tag slot)

/-- The constants of the last `left` slots, of which `slot` is the first. The empty slot behind an
eight-byte constant may be missing at the end. -/
def readSlots : (left slot : Nat) → Reader (List (Option Constant))
  | 0, _ => return []
  | left + 1, slot => do
    let constant ← readConstant slot
    if constant.isWide then
      match left with
      | 0 => return [some constant]
      | left + 1 => return some constant :: none :: (← readSlots left (slot + 2))
    else return some constant :: (← readSlots left (slot + 1))

def readPool : Reader Pool := do
  let count ← u2
  match count.toNat with
  | 0 => return { slots := #[] }
  | left + 1 => return { slots := (none :: (← readSlots left 1)).toArray }

/-- The outcome of a resolver on the pool of the named type. -/
def resolved {α : Type} (typeName : String) (found : Except Pool.Fault α) : Reader α :=
  check (found.mapError (.pool typeName))

/-- The text in the slot that the next two bytes name. -/
def readTextRef (pool : Pool) (typeName : String) : Reader String := do
  let slot ← u2
  resolved typeName (pool.utf8 slot.toNat)

def readLoadableRef (pool : Pool) (typeName : String) : Reader (Option Loadable) := do
  let slot ← u2
  resolved typeName (pool.loadable slot.toNat)

def readAttribute (pool : Pool) (typeName : String) : Reader (String × Bytes) := do
  let name ← readTextRef pool typeName
  let length ← u4
  return (name, ← take length.toNat)

/-- Whether a tag marks an element whose value is a constant of the pool. -/
def isConstantTag (tag : UInt8) : Bool :=
  "BCDFIJSZ".toList.any (·.toNat == tag.toNat)

mutual

/-- The value of an element, behind its tag. Every level of nesting takes at least one byte, so
the number of bytes that are left bounds the depth. -/
def readElement (pool : Pool) (typeName : String) : (depth : Nat) → Reader Element
  | 0 => throw .malformed
  | depth + 1 => do
    let tag ← u1
    if tag = 0x73 || tag = 0x63 then return .text (← readTextRef pool typeName)
    else if isConstantTag tag then return .constant (← readLoadableRef pool typeName)
    else if tag = 0x65 then
      return .enumeration (← readTextRef pool typeName) (← readTextRef pool typeName)
    else if tag = 0x40 then
      let a ← annotationReader pool typeName depth
      return .nested a.type a.elements
    else if tag = 0x5B then return .array (← counted (readElement pool typeName depth))
    else throw (.unknownElement tag)

/-- An annotation. A repeated element keeps its place and takes the last value. -/
def annotationReader (pool : Pool) (typeName : String) : (depth : Nat) → Reader Annotation
  | 0 => throw .malformed
  | depth + 1 => do
    let type ← readTextRef pool typeName
    let elements ← counted do
      let name ← readTextRef pool typeName
      return (name, ← readElement pool typeName depth)
    return { type, elements := elements.foldl (fun es (k, v) => Assoc.put k v es) [] }

end

def annotationsIn (pool : Pool) (typeName : String) (body : Bytes) :
    Except ClassError (List Annotation) :=
  front (counted (annotationReader pool typeName (body.length + 1))) body

def codeIn (body : Bytes) : Except ClassError Bytes :=
  front readCode body
where
  readCode : Reader Bytes := do
    let _maxStack ← u2
    let _maxLocals ← u2
    let length ← u4
    take length.toNat

/-- A field with one more attribute; a declared constant replaces the one before. -/
def addFieldAttribute (pool : Pool) (typeName : String) (field : Field) :
    String × Bytes → Except ClassError Field
  | (label, body) =>
    if label = "ConstantValue" then do
      return { field with constant := ← front (readLoadableRef pool typeName) body }
    else return field

/-- A method with one more attribute; the last code and the last annotations count. -/
def addMethodAttribute (pool : Pool) (typeName : String) (method : Method) :
    String × Bytes → Except ClassError Method
  | (label, body) =>
    if label = "Code" then do
      return { method with code := some (← codeIn body) }
    else if label = "RuntimeVisibleAnnotations" then do
      return { method with annotations := ← annotationsIn pool typeName body }
    else return method

/-- A field. Its attributes are all read before the first one is looked into. -/
def readField (pool : Pool) (typeName : String) : Reader Field := do
  let access ← u2
  let nameSlot ← u2
  let descriptorSlot ← u2
  let name ← resolved typeName (pool.utf8 nameSlot.toNat)
  let descriptor ← resolved typeName (pool.utf8 descriptorSlot.toNat)
  let attributes ← counted (readAttribute pool typeName)
  check (attributes.foldlM (addFieldAttribute pool typeName) { access, name, descriptor })

def readMethod (pool : Pool) (typeName : String) : Reader Method := do
  let access ← u2
  let nameSlot ← u2
  let descriptorSlot ← u2
  let name ← resolved typeName (pool.utf8 nameSlot.toNat)
  let descriptor ← resolved typeName (pool.utf8 descriptorSlot.toNat)
  let attributes ← counted (readAttribute pool typeName)
  check (attributes.foldlM (addMethodAttribute pool typeName) { access, name, descriptor })

/-- A bootstrap method, whose handle is checked behind its arguments. -/
def readBootstrapMethod (pool : Pool) (typeName : String) : Reader BootstrapMethod := do
  let handle ← readLoadableRef pool typeName
  let arguments ← counted (readLoadableRef pool typeName)
  match handle with
  | some (.handle handle) => return { handle, arguments }
  | _ => throw .bootstrapHandle

def addClassAttribute (cls : ClassFile) : String × Bytes → Except ClassError ClassFile
  | (label, body) =>
    if label = "BootstrapMethods" then do
      return { cls with
        bootstrapMethods := ← front (counted (readBootstrapMethod cls.pool cls.typeName)) body }
    else if label = "RuntimeVisibleAnnotations" then do
      return { cls with annotations := ← annotationsIn cls.pool cls.typeName body }
    else return cls

/-- A class file. The type is named in errors as soon as its name is known. -/
def reader : Reader ClassFile := do
  let magic ← u4
  if magic ≠ 0xCAFEBABE then throw .badMagic
  let _minor ← u2
  let _major ← u2
  let pool ← readPool
  let _access ← u2
  let thisSlot ← u2
  let superSlot ← u2
  let _interfaces ← counted u2
  let name ← resolved "" (pool.className thisSlot.toNat)
  let typeName := Naming.dotted name
  let superName ←
    if superSlot = 0 then pure none
    else some <$> resolved typeName (pool.className superSlot.toNat)
  let fields ← counted (readField pool typeName)
  let methods ← counted (readMethod pool typeName)
  let attributes ← counted (readAttribute pool typeName)
  check (attributes.foldlM addClassAttribute { name, superName, pool, fields, methods })

def parse (bytes : Bytes) : Except ClassError ClassFile :=
  front reader bytes

end ClassFile

end EndpointAudit
