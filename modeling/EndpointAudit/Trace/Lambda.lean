import EndpointAudit.Trace.Interpret

/-!
# Splicing lambda bodies

The compiler turns the body of a lambda into a method of the same class. In a spliced trace every
call of such a method is replaced by the trace of its body, unless the class has no body for it or
the body is already being spliced further out, so that lambdas may refer to each other in a circle.
-/

namespace EndpointAudit.Trace

/-- The call of an event that names a lambda body of the class. -/
def lambdaCall? (cls : ClassFile) (event : Event) : Option Call :=
  match event with
  | .call c =>
    if c.owner = cls.typeName ∧ Text.startsWith c.name "lambda$" then some c else none
  | _ => none

/-- The method to splice in for an event: a lambda body with code that is not among the enclosing
methods. -/
def spliceTarget? (cls : ClassFile) (enclosing : List String) (event : Event) :
    Option Method := do
  let call ← lambdaCall? cls event
  let target ← cls.findMethod call.name (some call.descriptor)
  if target.code.isNone || enclosing.contains target.key then none else some target

/-- The trace of a method with lambda bodies spliced in, `depth` levels deep at most. `enclosing`
are the keys of the methods around it. -/
def spliceWithin (cls : ClassFile) :
    (depth : Nat) → (enclosing : List String) → Method → Except Unavailable (List Event)
  | 0, _, method => interpret cls method
  | depth + 1, enclosing, method => do
    let enclosing := method.key :: enclosing
    let events ← interpret cls method
    let parts ← events.mapM fun event =>
      match spliceTarget? cls enclosing event with
      | some target => spliceWithin cls depth enclosing target
      | none => .ok [event]
    return parts.flatten

/-- The trace of a method with the bodies of the class's own lambdas spliced in. Every level
encloses one more method of the class, so as many levels as there are methods are enough. -/
def spliced (cls : ClassFile) (method : Method) : Except Unavailable (List Event) :=
  spliceWithin cls (cls.methods.length + 1) [] method

/-- The trace of a method of a class, which is looked up by name and, if given, by descriptor. -/
def ofMethod (cls : ClassFile) (methodName : String) (descriptor : Option String)
    (inlineLambdas : Bool) : Except Unavailable (List Event) :=
  match cls.findMethod methodName descriptor with
  | none => .error (.methodNotFound methodName cls.typeName)
  | some method => if inlineLambdas then spliced cls method else interpret cls method

end EndpointAudit.Trace
