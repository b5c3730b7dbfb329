import EndpointAudit.ClassFile.Reader
import EndpointAudit.Code.Instruction
import EndpointAudit.Trace.Event

/-!
# Tracing a method

The instructions of a method are walked once, in order, and each contributes the events it gives
rise to. Control flow is not followed.
-/

namespace EndpointAudit

/-- Why a piece of compiled code cannot be analysed. -/
inductive Unavailable where
  | classFile (error : ClassError)
  | typeNotFound (typeName : String)
  | methodNotFound (methodName typeName : String)
  | noCode (typeName methodName : String)
  | undecodable (typeName methodName : String) (fault : Code.Fault)
  | noFilterMethod (filterType : String)
deriving DecidableEq, Repr

def Unavailable.message (words : Option String := none) : Unavailable → String
  | .classFile error => error.message words
  | .typeNotFound typeName => s!"type {typeName} not found on classpath"
  | .methodNotFound methodName typeName => s!"method {methodName} not found in {typeName}"
  | .noCode typeName methodName => s!"{typeName}.{methodName} has no code"
  | .undecodable typeName methodName fault =>
    s!"cannot decode {typeName}.{methodName}: " ++ fault.message
  | .noFilterMethod filterType => s!"no per-request method configured for {filterType}"

namespace Trace

def callOf (ref : MemberRef) : Event :=
  .call { owner := Naming.dotted ref.owner, name := ref.name, descriptor := ref.descriptor }

/-- The calls of the methods that a bootstrap method is handed. -/
def handleCalls (arguments : List (Option Loadable)) : List Event :=
  arguments.filterMap fun
    | some (.handle handle) => some (callOf handle.target)
    | _ => none

/-- The slot of the pool from which an instruction loads a constant, if it is such an
instruction. -/
def constantSlot? (i : Code.Instruction) : Option Nat :=
  if i.opcode = 0x12 then some i.operand1
  else if i.opcode = 0x13 then some i.operand2
  else none

/-- The events an instruction gives rise to: a call for each invocation, one for each method that
is handed to a dynamic call, the text of a string constant, the name of an enumeration constant,
and the polarity of a boolean test. -/
def eventsOf (cls : ClassFile) (i : Code.Instruction) : Except ClassError (List Event) :=
  match constantSlot? i with
  | some slot => do
    let text ← cls.resolve (cls.pool.stringConstant slot)
    return (text.map Event.constant).toList
  | none =>
    if 0xB6 ≤ i.opcode.toNat ∧ i.opcode.toNat ≤ 0xB9 then do
      let ref ← cls.resolve (cls.pool.memberRef i.operand2)
      return [callOf ref]
    else if i.opcode = 0xBA then do
      let (bootstrap, _, _) ← cls.invokeDynamic i.operand2
      return (bootstrap.map fun b => handleCalls b.arguments).getD []
    else if i.opcode = 0xB2 then do
      let ref ← cls.resolve (cls.pool.memberRef i.operand2)
      if ref.descriptor = "L" ++ ref.owner ++ ";" then
        return [.constant (Naming.simpleName ref.owner ++ "." ++ ref.name)]
      else return []
    else if i.opcode = 0x99 then return [.branch false]
    else if i.opcode = 0x9A then return [.branch true]
    else return []

/-- The trace of a method. An instruction that cannot be resolved fails the trace before one
further on that cannot be decoded. -/
def interpret (cls : ClassFile) (method : Method) : Except Unavailable (List Event) :=
  match method.code with
  | none => .error (.noCode cls.typeName method.name)
  | some code => do
    let listing := Code.list code
    let events ← (listing.instructions.mapM (eventsOf cls)).mapError Unavailable.classFile
    match listing.fault with
    | none => return events.flatten
    | some fault => .error (.undecodable cls.typeName method.name fault)

end Trace

end EndpointAudit
