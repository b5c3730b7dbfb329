import EndpointAudit.Chain.Classification
import EndpointAudit.Endpoint.Record
import EndpointAudit.Filter.Coverage

/-!
# Merging findings into endpoints

A filter chain adds its features to every endpoint behind it, and a filter adds what it asks for to
the endpoints whose paths it guards. Nothing is ever taken away but the tag of a session policy
that gives way to a more specific one.
-/

namespace EndpointAudit

/-- The tag of an endpoint behind an API-key filter whose paths are not known. -/
def apiKeyUnresolvedTag : String :=
  "API Key Authentication potentially required (check implementation)"

namespace EndpointRecord

def isSessionTag (feature : String) : Bool := Text.startsWith feature SessionPolicy.tagStart

/-- The features of a chain that hold for every endpoint behind it. Evidence of an API key that
comes from an inserted filter is left to the filter's coverage. -/
def chainFeatures (c : Chain.Classification) : TagSet :=
  c.features.filter fun feature =>
    !isSessionTag feature && (c.chainWideApiKey || feature != Chain.apiKeyTag)

/-- With what a chain requires of every request. -/
def mergeRequirements (settings : Settings) (c : Chain.Classification) (r : EndpointRecord) :
    EndpointRecord :=
  { r with
    basicAuthRequired := r.basicAuthRequired || c.basicAuth
    apiKeyRequired := r.apiKeyRequired || c.chainWideApiKey
    apiKeyHeader := if c.chainWideApiKey then r.apiKeyHeader.or (some settings.apiKeyHeader)
      else r.apiKeyHeader
    features := r.features ∪ chainFeatures c }

/-- With a session policy, if it says more than the one known; its tag replaces the old one. -/
def mergePolicy (policy : SessionPolicy) (r : EndpointRecord) : EndpointRecord :=
  if policy.exceeds r.sessionPolicy then
    { r with
      features := r.features.filter (!isSessionTag ·)
      sessionPolicy := some policy }
  else r

def tagPolicy (r : EndpointRecord) : EndpointRecord :=
  match r.sessionPolicy with
  | some policy => r.addFeature policy.tag
  | none => r

def mergeChain (settings : Settings) (c : Chain.Classification) (r : EndpointRecord) :
    EndpointRecord :=
  let merged := r.mergeRequirements settings c
  (match c.sessionPolicy with
    | some policy => merged.mergePolicy policy
    | none => merged).tagPolicy

/-- With what a filter that guards its path asks for. -/
def addFilter (settings : Settings) (c : Filter.Coverage) (r : EndpointRecord) : EndpointRecord :=
  let label := c.labelFor r.path
  match Filter.familyOf c.filterType with
  | .apiKey =>
    let header := match c.header with
      | some header => if header = "" then settings.apiKeyHeader else header
      | none => settings.apiKeyHeader
    { r with apiKeyRequired := true, apiKeyHeader := some header }.addFeature
      (Chain.apiKeyTag ++ " required for " ++ label)
  | .jwt => r.addFeature (Chain.jwtTag ++ " required for " ++ label)
  | .basic =>
    { r with basicAuthRequired := true }.addFeature
      (Chain.basicAuthTag ++ " required for " ++ label)
  | .custom => r.addFeature (c.name ++ " applies to " ++ label)

/-- The record after a filter, and whether the filter guards its path. An API-key filter without
known paths leaves a tag on every endpoint. -/
def applyFilter (settings : Settings) (c : Filter.Coverage) (r : EndpointRecord) :
    EndpointRecord × Bool :=
  if c.patterns.isEmpty then
    (match Filter.familyOf c.filterType with
      | .apiKey => r.addFeature apiKeyUnresolvedTag
      | _ => r, false)
  else if c.appliesTo r.path then (r.addFilter settings c, true)
  else (r, false)

/-- The record after all filters, and how many of them guard its path. -/
def applyFilters (settings : Settings) (cs : List Filter.Coverage) (r : EndpointRecord) :
    EndpointRecord × Nat :=
  cs.foldl (fun (r, n) c =>
    let (r, applied) := r.applyFilter settings c
    (r, if applied then n + 1 else n)) (r, 0)

/-- The records after all filters, and how many times a filter guards a path. -/
def correlate (settings : Settings) (cs : List Filter.Coverage) (rs : List EndpointRecord) :
    List EndpointRecord × Nat :=
  let results := rs.map (·.applyFilters settings cs)
  (results.map (·.1), results.foldl (fun total r => total + r.2) 0)

end EndpointRecord

end EndpointAudit
