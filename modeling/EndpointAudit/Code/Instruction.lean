import EndpointAudit.Bytes.Basic

/-!
# Instructions

The code of a method is a sequence of instructions, each an opcode and its operands. Most opcodes
have a fixed number of operand bytes; the two switches have padding up to the next multiple of
four and a table whose size stands in front of it, and one opcode widens the next.
-/

namespace EndpointAudit.Code

structure Instruction where
  offset : Nat
  opcode : UInt8
  operands : Bytes
deriving DecidableEq, Repr

def Instruction.operand1 (i : Instruction) : Nat := Bytes.toNatBE (i.operands.take 1)

/-- The first two operand bytes as an unsigned number. -/
def Instruction.operand2 (i : Instruction) : Nat := Bytes.toNatBE (i.operands.take 2)

/-- Why the code cannot be divided into instructions, and at which offset. -/
inductive Fault where
  /-- The opcode is unknown, or the bytes that fix its length are missing. -/
  | unknown (opcode : UInt8) (offset : Nat)
  | tableBounds (offset : Nat)
  | pairCount (offset : Nat)
  | pastEnd (offset : Nat)
deriving DecidableEq, Repr

def Fault.message : Fault → String
  | .unknown opcode offset =>
    let digits := String.ofList (Text.hex 2 opcode.toNat)
    s!"cannot decode opcode 0x{digits} at {offset}"
  | .tableBounds offset => s!"tableswitch at {offset} has high < low"
  | .pairCount offset => s!"lookupswitch at {offset} has negative pair count"
  | .pastEnd offset => s!"instruction at {offset} runs past end of code"

/-- The number of operand bytes of an opcode that always has the same number of them. -/
def fixedOperands (opcode : UInt8) : Option Nat :=
  let n := opcode.toNat
  if n = 0x10 ∨ n = 0x12 ∨ n = 0xBC ∨ n = 0xA9 ∨ (0x15 ≤ n ∧ n ≤ 0x19) ∨
      (0x36 ≤ n ∧ n ≤ 0x3A) then some 1
  else if n = 0x11 ∨ n = 0x13 ∨ n = 0x14 ∨ n = 0x84 ∨ (0x99 ≤ n ∧ n ≤ 0xA8) ∨
      (0xB2 ≤ n ∧ n ≤ 0xB8) ∨ n = 0xBB ∨ n = 0xBD ∨ n = 0xC0 ∨ n = 0xC1 ∨ n = 0xC6 ∨
      n = 0xC7 then some 2
  else if n = 0xC5 then some 3
  else if n = 0xB9 ∨ n = 0xBA ∨ n = 0xC8 ∨ n = 0xC9 then some 4
  else if n ≤ 0xCA ∨ n = 0xFE ∨ n = 0xFF then some 0
  else none

/-- The signed number in four bytes, if there are as many. -/
def signed32 (bytes : Bytes) : Option Int :=
  let word := bytes.take 4
  if word.length = 4 then
    let n := Bytes.toNatBE word
    some (if n < 0x80000000 then n else (n : Int) - 0x100000000)
  else none

/-- The number of bytes between a switch at `offset` and its table. -/
def padding (offset : Nat) : Nat := (4 - (offset + 1) % 4) % 4

/-- The number of operand bytes of the switch over a range of values at `offset`; `tail` is what
follows its opcode. -/
def tableOperands (offset : Nat) (opcode : UInt8) (tail : Bytes) : Except Fault Nat :=
  let body := tail.drop (padding offset)
  match signed32 body, signed32 (body.drop 4), signed32 (body.drop 8) with
  | some _, some low, some high =>
    if high < low then .error (.tableBounds offset)
    else .ok (padding offset + 12 + (high - low + 1).toNat * 4)
  | _, _, _ => .error (.unknown opcode offset)

/-- The number of operand bytes of the switch over pairs at `offset`. -/
def lookupOperands (offset : Nat) (opcode : UInt8) (tail : Bytes) : Except Fault Nat :=
  let body := tail.drop (padding offset)
  match signed32 body, signed32 (body.drop 4) with
  | some _, some pairs =>
    if pairs < 0 then .error (.pairCount offset)
    else .ok (padding offset + 8 + pairs.toNat * 8)
  | _, _ => .error (.unknown opcode offset)

def operandCount (offset : Nat) (opcode : UInt8) (tail : Bytes) : Except Fault Nat :=
  if opcode = 0xAA then tableOperands offset opcode tail
  else if opcode = 0xAB then lookupOperands offset opcode tail
  else if opcode = 0xC4 then
    match tail with
    | [] => .error (.unknown opcode offset)
    | widened :: _ => .ok (if widened = 0x84 then 5 else 3)
  else match fixedOperands opcode with
    | some n => .ok n
    | none => .error (.unknown opcode offset)

/-- The instructions of a piece of code, up to the first one that cannot be decoded. -/
structure Listing where
  instructions : List Instruction
  fault : Option Fault
deriving DecidableEq, Repr

def listFrom (offset : Nat) (code : Bytes) : Listing :=
  match code with
  | [] => { instructions := [], fault := none }
  | opcode :: tail =>
    match operandCount offset opcode tail with
    | .error fault => { instructions := [], fault := some fault }
    | .ok n =>
      let operands := tail.take n
      if operands.length = n then
        let rest := listFrom (offset + 1 + n) (tail.drop n)
        { rest with instructions := { offset, opcode, operands } :: rest.instructions }
      else { instructions := [], fault := some (.pastEnd offset) }
termination_by code.length
decreasing_by simp only [List.length_drop, List.length_cons]; omega

def list (code : Bytes) : Listing := listFrom 0 code

end EndpointAudit.Code
