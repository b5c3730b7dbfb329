/-!
# The constant pool

The constants of a class file and the pool that holds them. Slots are numbered from one; an
eight-byte constant takes two slots, of which the second stays empty. Constants refer to each
other by slot number, and every resolver says which slot failed it and why.
-/

namespace EndpointAudit

/-- A constant as written in a class file. Numbers of slots are not resolved. -/
inductive Constant where
  | utf8 (text : String)
  | integer (value : Int32)
  | float (bits : UInt32)
  | long (value : Int64)
  | double (bits : UInt64)
  | classRef (name : UInt16)
  | string (text : UInt16)
  | fieldRef (owner member : UInt16)
  | methodRef (owner member : UInt16)
  | interfaceMethodRef (owner member : UInt16)
  | nameAndType (name descriptor : UInt16)
  | methodHandle (kind : UInt8) (ref : UInt16)
  | methodType (descriptor : UInt16)
  | dynamic (bootstrap member : UInt16)
  | invokeDynamic (bootstrap member : UInt16)
  | moduleName (name : UInt16)
  | packageName (name : UInt16)
deriving DecidableEq, Repr

def Constant.tag : Constant → UInt8
  | .utf8 _ => 1
  | .integer _ => 3
  | .float _ => 4
  | .long _ => 5
  | .double _ => 6
  | .classRef _ => 7
  | .string _ => 8
  | .fieldRef _ _ => 9
  | .methodRef _ _ => 10
  | .interfaceMethodRef _ _ => 11
  | .nameAndType _ _ => 12
  | .methodHandle _ _ => 15
  | .methodType _ => 16
  | .dynamic _ _ => 17
  | .invokeDynamic _ _ => 18
  | .moduleName _ => 19
  | .packageName _ => 20

/-- Whether a constant takes two slots. -/
def Constant.isWide : Constant → Bool
  | .long _ | .double _ => true
  | _ => false

/-- A field or method as referred to by code; the owner is in internal form. -/
structure MemberRef where
  owner : String
  name : String
  descriptor : String
deriving DecidableEq, Repr

/-- A reference to a method or field together with the way it is used. -/
structure MethodHandle where
  kind : UInt8
  target : MemberRef
deriving DecidableEq, Repr

/-- The value of a constant that code or an annotation can load. Floating-point numbers are kept
as their bits. -/
inductive Loadable where
  | text (value : String)
  | number (value : Int)
  | float (bits : UInt32)
  | double (bits : UInt64)
  | handle (value : MethodHandle)
deriving DecidableEq, Repr

/-- The slots of a constant pool, the unused slot zero included. -/
structure Pool where
  slots : Array (Option Constant)
deriving DecidableEq, Repr

namespace Pool

inductive Fault where
  /-- The slot does not exist or is empty. -/
  | index (slot : Int)
  /-- The slot holds a constant of another kind. -/
  | tag (slot : Int) (tag : UInt8)
deriving DecidableEq, Repr

def entry (p : Pool) (slot : Int) : Except Fault Constant :=
  if slot ≤ 0 then .error (.index slot)
  else match p.slots[slot.toNat]? with
    | some (some c) => .ok c
    | _ => .error (.index slot)

def utf8 (p : Pool) (slot : Int) : Except Fault String := do
  match ← p.entry slot with
  | .utf8 text => .ok text
  | c => .error (.tag slot c.tag)

/-- The name of the class in a slot, in internal form. -/
def className (p : Pool) (slot : Int) : Except Fault String := do
  match ← p.entry slot with
  | .classRef name => p.utf8 name.toNat
  | c => .error (.tag slot c.tag)

def nameAndType (p : Pool) (slot : Int) : Except Fault (String × String) := do
  match ← p.entry slot with
  | .nameAndType name descriptor =>
    let name ← p.utf8 name.toNat
    let descriptor ← p.utf8 descriptor.toNat
    .ok (name, descriptor)
  | c => .error (.tag slot c.tag)

def memberRef (p : Pool) (slot : Int) : Except Fault MemberRef := do
  match ← p.entry slot with
  | .fieldRef owner member | .methodRef owner member | .interfaceMethodRef owner member =>
    let (name, descriptor) ← p.nameAndType member.toNat
    let owner ← p.className owner.toNat
    .ok { owner, name, descriptor }
  | c => .error (.tag slot c.tag)

/-- The text of a string constant, or `none` for a constant of another kind. -/
def stringConstant (p : Pool) (slot : Int) : Except Fault (Option String) := do
  match ← p.entry slot with
  | .string text => return some (← p.utf8 text.toNat)
  | _ => return none

/-- The value of a constant, or `none` for a constant that cannot be loaded. -/
def loadable (p : Pool) (slot : Int) : Except Fault (Option Loadable) := do
  match ← p.entry slot with
  | .string text | .classRef text | .methodType text =>
    return some (.text (← p.utf8 text.toNat))
  | .methodHandle kind ref =>
    return some (.handle { kind, target := ← p.memberRef ref.toNat })
  | .utf8 text => return some (.text text)
  | .integer value => return some (.number value.toInt)
  | .long value => return some (.number value.toInt)
  | .float bits => return some (.float bits)
  | .double bits => return some (.double bits)
  | _ => return none

/-- The bootstrap method's number, the name and the descriptor of a dynamic constant or call. -/
def dynamicRef (p : Pool) (slot : Int) : Except Fault (Nat × String × String) := do
  match ← p.entry slot with
  | .invokeDynamic bootstrap member | .dynamic bootstrap member =>
    let (name, descriptor) ← p.nameAndType member.toNat
    .ok (bootstrap.toNat, name, descriptor)
  | c => .error (.tag slot c.tag)

end Pool

end EndpointAudit
