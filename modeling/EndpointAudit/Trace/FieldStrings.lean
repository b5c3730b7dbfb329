import EndpointAudit.Trace.Interpret

/-!
# Strings assigned to fields

Which of its own fields a class sets to a string constant: by a constant in the field's
declaration, or by storing a constant right after loading it in a constructor or in the static
initializer.
-/

namespace EndpointAudit.Trace

/-- The fields assigned so far and the string constant on top of the stack, if there is one. -/
structure FieldScan where
  values : List (String × String)
  pending : Option String := none
deriving DecidableEq, Repr

namespace FieldScan

/-- Whether an instruction leaves the constant on top of the stack usable. -/
def keepsPending (i : Code.Instruction) : Bool := i.opcode == 0x2A || i.opcode == 0x59

def isStore (i : Code.Instruction) : Bool := i.opcode == 0xB5 || i.opcode == 0xB3

/-- The values after a store, which counts only for a string field of the class itself that has no
value yet. -/
def store (cls : ClassFile) (ref : MemberRef) (text : String) (values : List (String × String)) :
    List (String × String) :=
  if ref.owner = cls.name ∧ ref.descriptor = "Ljava/lang/String;" then
    Assoc.putIfAbsent ref.name text values
  else values

def step (cls : ClassFile) (scan : FieldScan) (i : Code.Instruction) :
    Except ClassError FieldScan :=
  match constantSlot? i with
  | some slot => do
    return { scan with pending := ← cls.resolve (cls.pool.stringConstant slot) }
  | none => do
    let values ← match scan.pending with
      | some text =>
        if isStore i then do
          let ref ← cls.resolve (cls.pool.memberRef i.operand2)
          pure (store cls ref text scan.values)
        else pure scan.values
      | none => pure scan.values
    return { values, pending := if keepsPending i then scan.pending else none }

/-- The values after a list of instructions, of which the scan stops at the first that cannot be
resolved. -/
def run (cls : ClassFile) : FieldScan → List Code.Instruction → List (String × String)
  | scan, [] => scan.values
  | scan, i :: rest =>
    match step cls scan i with
    | .ok next => run cls next rest
    | .error _ => scan.values

end FieldScan

/-- The fields declared with a string constant; of fields with one name the last counts. -/
def declaredStrings (fields : List Field) : List (String × String) :=
  fields.foldl (fun values f => match f.constant with
    | some (.text text) => Assoc.put f.name text values
    | _ => values) []

/-- Whether a method sets up a class or its instances. -/
def isInitializer (m : Method) : Bool := m.name == "<init>" || m.name == "<clinit>"

/-- The string constants stored into the class's own fields, in the order in which the fields are
first assigned. -/
def fieldStrings (cls : ClassFile) : List (String × String) :=
  (cls.methods.filter isInitializer).foldl (fun values m => match m.code with
    | some code => FieldScan.run cls { values } (Code.list code).instructions
    | none => values) (declaredStrings cls.fields)

end EndpointAudit.Trace
