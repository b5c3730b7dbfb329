import EndpointAudit.ClassPath.Basic
import EndpointAudit.Data.Assoc

/-!
# Classes that have been parsed

A class file is read and parsed when its type is first asked for, and kept from then on under the
dotted name of the type. What cannot be loaded is looked for again each time.
-/

namespace EndpointAudit

/-- The classes that have been parsed, in the order of parsing. -/
structure ClassCache where
  parsed : List (String × ClassFile) := []

/-- The cache with one more class, unless there is one of that name. -/
def ClassCache.keep (cache : ClassCache) (key : String) (cls : ClassFile) : ClassCache :=
  { parsed := Assoc.putIfAbsent key cls cache.parsed }

abbrev Loading := ExceptT LoadError (StateM ClassCache)

namespace ClassPath

/-- The class file of a type, from the cache if it has been parsed before. -/
def loadCached (cp : ClassPath) (typeName : String) : Loading ClassFile := do
  match Assoc.get? (Naming.dotted typeName) (← get).parsed with
  | some cls => return cls
  | none =>
    let cls ← cp.load typeName
    modify (·.keep (Naming.dotted typeName) cls)
    return cls

/-- The trace of a method of a type, whose class is kept. -/
def traceCached (cp : ClassPath) (typeName methodName : String) (descriptor : Option String)
    (inlineLambdas : Bool) : Loading (List Event) := do
  let cls ← cp.loadCached typeName
  (Trace.ofMethod cls methodName descriptor inlineLambdas).mapError LoadError.unavailable

end ClassPath

end EndpointAudit
