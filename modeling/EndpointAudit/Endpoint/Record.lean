import EndpointAudit.Endpoint.SessionPolicy
import EndpointAudit.Route
import EndpointAudit.Text.TagSet

/-!
# Endpoint records

An endpoint while it is being analysed: where it is, who may call it, and what the filter chains in
front of it ask for.
-/

namespace EndpointAudit

inductive HttpVerb where
  | get
  | post
  | put
  | delete
  | patch
  | head
  | options
  | trace
deriving DecidableEq, Repr, Inhabited

namespace HttpVerb

def name : HttpVerb → String
  | .get => "GET"
  | .post => "POST"
  | .put => "PUT"
  | .delete => "DELETE"
  | .patch => "PATCH"
  | .head => "HEAD"
  | .options => "OPTIONS"
  | .trace => "TRACE"

def all : List HttpVerb := [.get, .post, .put, .delete, .patch, .head, .options, .trace]

def ofName? (name : String) : Option HttpVerb := all.find? (·.name == name)

theorem ofName?_name (verb : HttpVerb) : ofName? verb.name = some verb := by
  cases verb <;> decide

theorem name_injective : Function.Injective name := by
  intro a b h
  have hverb := ofName?_name a
  rw [h, ofName?_name] at hverb
  exact (Option.some.inj hverb).symm

end HttpVerb

/-- The expression of an endpoint that asks for no authorization. -/
def noAuthorization : String := "None"

structure EndpointRecord where
  path : String
  verb : HttpVerb := .get
  authExpression : String := noAuthorization
  apiKeyRequired : Bool := false
  apiKeyHeader : Option String := none
  basicAuthRequired : Bool := false
  sessionPolicy : Option SessionPolicy := none
  features : TagSet := ∅
  declaringType : Option String := none
  methodName : Option String := none
deriving DecidableEq, Repr

namespace EndpointRecord

/-- A record with its path in normal form and with an expression that is not empty. -/
def create (r : EndpointRecord) : EndpointRecord :=
  { r with
    path := Route.normalize r.path
    authExpression := if r.authExpression = "" then noAuthorization else r.authExpression }

/-- Verb and path, for the user to read. -/
def label (r : EndpointRecord) : String := r.verb.name ++ " " ++ r.path

def addFeature (r : EndpointRecord) (feature : String) : EndpointRecord :=
  { r with features := r.features.insert feature }

end EndpointRecord

end EndpointAudit
