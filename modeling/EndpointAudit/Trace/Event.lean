import EndpointAudit.ClassFile.Descriptor

/-!
# Trace events

The trace of a method lists, in program order, what the analysis looks at: the calls it makes, the
string constants it loads and the branches that test a boolean.
-/

namespace EndpointAudit

/-- A call; the owner is a dotted type name. -/
structure Call where
  owner : String
  name : String
  descriptor : String
deriving DecidableEq, Repr

namespace Call

def ownerSimpleName (c : Call) : String := Naming.simpleName c.owner

/-- The dotted type of the result, if the call returns an object. -/
def returnType? (c : Call) : Option String :=
  match Descriptor.parse c.descriptor with
  | .ok (_, result) =>
    if Descriptor.isClassType result then some (Descriptor.typeName result) else none
  | .error _ => none

/-- The types of the parameters, class types in dotted form. A descriptor that cannot be parsed
has no parameters. -/
def parameterTypes (c : Call) : List String :=
  match Descriptor.parse c.descriptor with
  | .ok (types, _) => types.map fun type =>
    if Text.startsWith type "L" then Naming.dotted (Descriptor.inner type) else type
  | .error _ => []

end Call

inductive Event where
  | call (call : Call)
  /-- A string constant is loaded. -/
  | constant (text : String)
  /-- A boolean is tested; `negated` means that the code behind runs if it is false. -/
  | branch (negated : Bool)
deriving DecidableEq, Repr

def Event.call? : Event → Option Call
  | .call c => some c
  | _ => none

def Event.constant? : Event → Option String
  | .constant text => some text
  | _ => none

end EndpointAudit
