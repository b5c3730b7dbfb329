import EndpointAudit.Bytes.Basic
import EndpointAudit.ClassFile.Constant
import EndpointAudit.ClassFile.Descriptor
import EndpointAudit.Data.Assoc

/-!
# Class files

What the analysis needs of a compiled class: its names, its constant pool, its fields with their
constants, its methods with code and annotations, and its bootstrap methods.
-/

namespace EndpointAudit

inductive Element where
  /-- A constant of the pool; `none` if it cannot be loaded. -/
  | constant (value : Option Loadable)
  /-- A text or the descriptor of a class. -/
  | text (value : String)
  /-- A constant of an enumeration. -/
  | enumeration (type name : String)
  /-- An annotation inside an annotation. -/
  | nested (type : String) (elements : List (String × Element))
  | array (items : List Element)
deriving Repr, BEq, Inhabited

def Element.asText? : Element → Option String
  | .text value => some value
  | .constant (some (.text value)) => some value
  | _ => none

/-- The texts of an element: its own, or those among its items. -/
def Element.texts : Element → List String
  | .array items => items.filterMap asText?
  | e => e.asText?.toList

/-- An annotation kept for run time. -/
structure Annotation where
  /-- The descriptor of the annotation's type. -/
  type : String
  elements : List (String × Element) := []
deriving Repr, BEq, Inhabited

namespace Annotation

def typeName (a : Annotation) : String := Descriptor.typeName a.type

def texts (a : Annotation) (name : String) : List String :=
  ((Assoc.get? name a.elements).map Element.texts).getD []

def firstText (a : Annotation) (names : List String) : Option String :=
  (names.flatMap a.texts).head?

/-- The first annotation with the given type, named in full or by its last segment. -/
def find? (typeName : String) (annotations : List Annotation) : Option Annotation :=
  annotations.find? fun a =>
    a.typeName == typeName || Text.afterLast '.' a.typeName == typeName

end Annotation

structure Field where
  access : UInt16
  name : String
  descriptor : String
  /-- The value the field is declared with, if it can be loaded. -/
  constant : Option Loadable := none
deriving Repr, BEq, Inhabited

structure Method where
  access : UInt16
  name : String
  descriptor : String
  code : Option Bytes := none
  annotations : List Annotation := []
deriving Repr, BEq, Inhabited

namespace Method

/-- Whether the compiler made the method. -/
def isSynthetic (m : Method) : Bool := m.access &&& 0x1000 != 0

/-- The descriptor of the result, if the method's descriptor has a closing parenthesis. -/
def resultDescriptor? (m : Method) : Option String := Descriptor.resultOf m.descriptor

def annotation? (m : Method) (typeName : String) : Option Annotation :=
  Annotation.find? typeName m.annotations

/-- Name and descriptor, by which methods of a class are told apart. -/
def key (m : Method) : String := m.name ++ m.descriptor

end Method

/-- A method that computes the target of dynamic calls, with its extra arguments. -/
structure BootstrapMethod where
  handle : MethodHandle
  arguments : List (Option Loadable)
deriving Repr, BEq

/-- Why bytes are no class file. -/
inductive ClassError where
  /-- The bytes end too early, or a text is not encoded as it should be. -/
  | malformed
  | badMagic
  | unknownTag (tag : UInt8) (slot : Nat)
  /-- A slot of the pool of the named type cannot be resolved. -/
  | pool (typeName : String) (fault : Pool.Fault)
  | bootstrapHandle
  | unknownElement (tag : UInt8)
deriving DecidableEq, Repr

/-- A class file as far as it has been read. -/
structure ClassFile where
  /-- The name in internal form. -/
  name : String
  superName : Option String := none
  pool : Pool
  fields : List Field := []
  methods : List Method := []
  annotations : List Annotation := []
  bootstrapMethods : List BootstrapMethod := []
deriving Repr, BEq

namespace ClassFile

def typeName (c : ClassFile) : String := Naming.dotted c.name

/-- The outcome of a resolver, with the class named in its failure. -/
def resolve {α : Type} (c : ClassFile) (found : Except Pool.Fault α) : Except ClassError α :=
  found.mapError (.pool c.typeName)

def methodsNamed (c : ClassFile) (name : String) : List Method :=
  c.methods.filter (·.name == name)

/-- The first method with a given name, and with a given descriptor if one is asked for, that has
code; failing that the first one without. -/
def findMethod (c : ClassFile) (name : String) (descriptor : Option String := none) :
    Option Method :=
  let candidates := c.methods.filter fun m =>
    m.name == name && descriptor.all (· == m.descriptor)
  (candidates.find? (·.code.isSome)).or candidates.head?

def annotation? (c : ClassFile) (typeName : String) : Option Annotation :=
  Annotation.find? typeName c.annotations

/-- The bootstrap method, the name and the descriptor of a dynamic constant or call. -/
def invokeDynamic (c : ClassFile) (slot : Int) :
    Except ClassError (Option BootstrapMethod × String × String) := do
  let (bootstrap, name, descriptor) ← c.resolve (c.pool.dynamicRef slot)
  return (c.bootstrapMethods[bootstrap]?, name, descriptor)

end ClassFile

end EndpointAudit
