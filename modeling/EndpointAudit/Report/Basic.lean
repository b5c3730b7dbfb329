import EndpointAudit.Chain.Classification
import EndpointAudit.Endpoint.Record
import EndpointAudit.Moment
import EndpointAudit.Text.Blank

/-!
# Reports

A report lists endpoints grouped by their authorization expressions, as they were at one moment.
-/

namespace EndpointAudit

structure Entry where
  path : String
  verb : HttpVerb
  authExpression : String := noAuthorization
  apiKeyRequired : Bool := false
  apiKeyHeader : Option String := none
  basicAuthRequired : Bool := false
  sessionPolicy : Option SessionPolicy := none
  features : List String := []
  declaringType : Option String := none
  methodName : Option String := none
deriving DecidableEq, Repr

namespace Entry

/-- The expression of an entry; a blank one stands for no authorization. -/
def expressionOf (expression : String) : String :=
  if Text.isBlankText expression then noAuthorization else expression

def csrfEnabled (e : Entry) : Bool := !e.features.contains Chain.csrfDisabledTag

def label (e : Entry) : String := e.verb.name ++ " " ++ e.path

end Entry

/-- An endpoint record as an entry, its features in order. -/
def EndpointRecord.snapshot (r : EndpointRecord) : Entry :=
  { path := r.path
    verb := r.verb
    authExpression := Entry.expressionOf r.authExpression
    apiKeyRequired := r.apiKeyRequired
    apiKeyHeader := r.apiKeyHeader
    basicAuthRequired := r.basicAuthRequired
    sessionPolicy := r.sessionPolicy
    features := r.features.toList
    declaringType := r.declaringType
    methodName := r.methodName }

/-- The endpoints with one authorization expression. -/
structure Group where
  authExpression : String
  endpoints : List Entry := []
deriving DecidableEq, Repr

structure Report where
  generatedAt : Moment
  groups : List Group := []
deriving DecidableEq, Repr

namespace Report

def endpoints (r : Report) : List Entry := r.groups.flatMap (·.endpoints)

def totalEndpoints (r : Report) : Nat := r.endpoints.length

def uniqueExpressions (r : Report) : Nat := r.groups.length

end Report

/-- Groups with one more entry, put at the end of its group or into a new one. -/
def addToGroups (e : Entry) : List Group → List Group
  | [] => [{ authExpression := e.authExpression, endpoints := [e] }]
  | g :: rest =>
    if g.authExpression = e.authExpression then { g with endpoints := g.endpoints ++ [e] } :: rest
    else g :: addToGroups e rest

/-- Entries grouped by their expressions, in order of first occurrence. -/
def groupEntries (entries : List Entry) : List Group :=
  entries.foldl (fun groups e => addToGroups e groups) []

def Report.ofRecords (generatedAt : Moment) (records : List EndpointRecord) : Report :=
  { generatedAt, groups := groupEntries (records.map EndpointRecord.snapshot) }

end EndpointAudit
