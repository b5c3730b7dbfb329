import EndpointAudit.Discovery.Controller
import EndpointAudit.Notice

/-!
# Discovery

The endpoints and the configuration methods on a class path. A class that cannot be loaded is
skipped with a notice.
-/

namespace EndpointAudit

/-- A method that configures a filter chain. -/
structure ConfigMethod where
  declaringType : String
  methodName : String
  descriptor : Option String := none
deriving DecidableEq, Repr

def ConfigMethod.name (c : ConfigMethod) : String := c.declaringType ++ "." ++ c.methodName

namespace Discovery

/-- What has been found, what was told on the way, and what ended the search early. -/
structure Findings (α : Type) extends Log where
  items : List α := []
  error : Option ScanError := none
deriving Repr

def Findings.append {α : Type} (first rest : Findings α) : Findings α :=
  match first.error with
  | some _ => first
  | none =>
    { toLog := first.toLog ++ rest.toLog
      items := first.items ++ rest.items
      error := rest.error }

structure Search (α : Type) where
  find : ClassFile → Except ScanError (List α)
  /-- What is told about a class that has been looked into. -/
  remarks : ClassFile → List Notice := fun _ => []

def Search.look {α : Type} (search : Search α) (cls : ClassFile) : Findings α :=
  match search.find cls with
  | .ok items => { items, remarks := search.remarks cls }
  | .error e => { error := some e }

/-- What is found at one step of the listing of a class path. -/
def findingsAt {α : Type} (cp : ClassPath) (search : Search α) : ClassPath.Visit → Findings α
  | .skipped entry => { notices := [.skippedEntry entry] }
  | .broken entry => { error := some (.brokenArchive entry) }
  | .type typeName =>
    match cp.load typeName with
    | .ok cls => search.look cls
    | .error (.unavailable reason) => { notices := [.skippedClass typeName reason] }
    | .error (.fatal e) => { error := some e }

/-- What is found in the classes of a package, in the order of the class path. -/
def findIn {α : Type} (cp : ClassPath) (package : String) (search : Search α) : Findings α :=
  (cp.visits package).foldr (fun visit rest => (findingsAt cp search visit).append rest) {}

def endpointsOf (cls : ClassFile) : Except ScanError (List EndpointRecord) :=
  .ok (if isController cls then controllerEndpoints cls else [])

/-- The number of endpoints is told of every controller. -/
def controllerRemarks (cls : ClassFile) : List Notice :=
  if isController cls then [.controllerRead cls.typeName (controllerEndpoints cls).length] else []

def filterChainType : String := "org.springframework.security.web.SecurityFilterChain"

/-- The configuration method that a method is, if it returns a filter chain. -/
def configMethod? (cls : ClassFile) (m : Method) : Except ScanError (Option ConfigMethod) :=
  if m.isSynthetic then .ok none
  else match m.resultDescriptor? with
    | none => .error (.badDescriptor m.descriptor)
    | some result =>
      if Text.startsWith result "L" && Descriptor.typeName result == filterChainType then
        .ok (some { declaringType := cls.typeName, methodName := m.name,
                    descriptor := some m.descriptor })
      else .ok none

def configMethodsOf (cls : ClassFile) : Except ScanError (List ConfigMethod) := do
  return (← cls.methods.mapM (configMethod? cls)).filterMap id

def endpoints (cp : ClassPath) (package : String) : Findings EndpointRecord :=
  findIn cp package { find := endpointsOf, remarks := controllerRemarks }

def configMethods (cp : ClassPath) (package : String) : Findings ConfigMethod :=
  findIn cp package { find := configMethodsOf }

end Discovery

end EndpointAudit
