import EndpointAudit.ClassFile.Basic
import EndpointAudit.Endpoint.Record

/-!
# Controllers

Endpoints as declared by the annotations of a controller class: which methods are mapped to which
paths and verbs, and what authorization they ask for.
-/

namespace EndpointAudit.Discovery

def webPackage : String := "org.springframework.web.bind.annotation."

def controllerAnnotations : List String :=
  [webPackage ++ "RestController", "org.springframework.stereotype.Controller"]

def requestMapping : String := webPackage ++ "RequestMapping"

def verbMappings : List (String × HttpVerb) :=
  [(webPackage ++ "GetMapping", .get), (webPackage ++ "PostMapping", .post),
    (webPackage ++ "PutMapping", .put), (webPackage ++ "DeleteMapping", .delete),
    (webPackage ++ "PatchMapping", .patch)]

def preAuthorize : String := "org.springframework.security.access.prepost.PreAuthorize"

def roleAnnotations : List String :=
  ["org.springframework.security.access.annotation.Secured",
    "jakarta.annotation.security.RolesAllowed", "javax.annotation.security.RolesAllowed"]

/-- The paths of a mapping; a mapping without a path stands for the empty one. -/
def mappedPaths (mapping : Option Annotation) : List String :=
  match mapping with
  | none => [""]
  | some a =>
    match a.texts "value", a.texts "path" with
    | [], [] => [""]
    | [], paths => paths
    | paths, _ => paths

def elementVerb? : Element → Option HttpVerb
  | .enumeration _ name => HttpVerb.ofName? name
  | _ => none

/-- The verbs of a mapping, which stands for reading if it names none. -/
def mappedVerbs (mapping : Annotation) : List HttpVerb :=
  let items := match Assoc.get? "method" mapping.elements with
    | some (.array items) => items
    | some item => [item]
    | none => []
  match items.filterMap elementVerb? with
  | [] => [.get]
  | verbs => verbs

/-- The paths and verbs that a method is mapped to. -/
def mappings (m : Method) : List (String × HttpVerb) :=
  let single := verbMappings.findSome? fun (type, verb) =>
    (m.annotation? type).map fun a => (mappedPaths (some a)).map (·, verb)
  match single with
  | some found => found
  | none =>
    match m.annotation? requestMapping with
    | none => []
    | some a => (mappedPaths (some a)).flatMap fun path => (mappedVerbs a).map (path, ·)

def expressionOf (a : Option Annotation) : Option String := do
  let text ← (← a).firstText ["value"]
  if text = "" then none else some text

/-- The roles that the first role annotation with any lists. -/
def rolesOf (m : Method) : Option String :=
  roleAnnotations.findSome? fun type => do
    match (← m.annotation? type).texts "value" with
    | [] => none
    | roles => some (Text.join ", " roles)

/-- The authorization that a method asks for: by its own expression, by its roles, or by the
expression of its class. -/
def authExpression (cls : ClassFile) (m : Method) : String :=
  ((expressionOf (m.annotation? preAuthorize)).or ((rolesOf m).or
    (expressionOf (cls.annotation? preAuthorize)))).getD noAuthorization

def isController (cls : ClassFile) : Bool :=
  controllerAnnotations.any fun type => (cls.annotation? type).isSome

def methodEndpoints (cls : ClassFile) (basePaths : List String) (m : Method) :
    List EndpointRecord :=
  if m.isSynthetic then []
  else basePaths.flatMap fun base => (mappings m).map fun (path, verb) =>
    EndpointRecord.create
      { path := Route.normalize (base ++ "/" ++ path)
        verb
        authExpression := authExpression cls m
        declaringType := some cls.typeName
        methodName := some m.name }

/-- The endpoints of a controller, in the order of its methods. -/
def controllerEndpoints (cls : ClassFile) : List EndpointRecord :=
  cls.methods.flatMap (methodEndpoints cls (mappedPaths (cls.annotation? requestMapping)))

end EndpointAudit.Discovery
