import EndpointAudit.Data.Assoc
import EndpointAudit.Report.Basic

/-!
# Comparing reports

Endpoints of two reports are matched by path and verb, or by path alone. What one report has alone
was added or removed; what both have was changed if it differs in a field that counts.
-/

namespace EndpointAudit

/-- How endpoints of two reports are matched. -/
inductive DiffKey where
  | pathAndVerb
  | path
deriving DecidableEq, Repr

def DiffKey.of (key : DiffKey) (e : Entry) : List String :=
  match key with
  | .path => [e.path]
  | .pathAndVerb => [e.path, e.verb.name]

/-- The fields of an entry whose change counts. -/
structure ComparisonKey where
  authExpression : String
  verb : HttpVerb
  apiKeyRequired : Bool
  basicAuthRequired : Bool
  csrfEnabled : Bool
  sessionPolicy : Option SessionPolicy
  features : TagSet
deriving DecidableEq, Repr

def Entry.comparisonKey (e : Entry) : ComparisonKey :=
  { authExpression := e.authExpression
    verb := e.verb
    apiKeyRequired := e.apiKeyRequired
    basicAuthRequired := e.basicAuthRequired
    csrfEnabled := e.csrfEnabled
    sessionPolicy := e.sessionPolicy
    features := TagSet.ofList e.features }

def Entry.hasChanged (old new : Entry) : Bool := old.comparisonKey != new.comparisonKey

/-- An endpoint in two reports: in the new one only, in the old one only, or in both. -/
structure EndpointDiff where
  new : Option Entry := none
  old : Option Entry := none
deriving DecidableEq, Repr

def EndpointDiff.path? (d : EndpointDiff) : Option String :=
  (d.new.or d.old).map (·.path)

structure DiffReport where
  added : List EndpointDiff := []
  removed : List EndpointDiff := []
  changed : List EndpointDiff := []
deriving DecidableEq, Repr

def DiffReport.isEmpty (d : DiffReport) : Bool :=
  d.added.isEmpty && d.removed.isEmpty && d.changed.isEmpty

namespace Report

/-- The endpoints of a report by key, in order of first occurrence; of several with one key the
last one counts. -/
def index (key : DiffKey) (r : Report) : List (List String × Entry) :=
  r.endpoints.foldl (fun entries e => Assoc.put (key.of e) e entries) []

/-- The difference from an old report to a new one. What was added or changed is in the order of
the new report, what was removed in that of the old one. -/
def diff (key : DiffKey) (old new : Report) : DiffReport :=
  let oldIndex := old.index key
  let newIndex := new.index key
  { added := newIndex.filterMap fun (k, e) =>
      if Assoc.hasKey k oldIndex then none else some { new := some e }
    removed := oldIndex.filterMap fun (k, e) =>
      if Assoc.hasKey k newIndex then none else some { old := some e }
    changed := newIndex.filterMap fun (k, e) => do
      let before ← Assoc.get? k oldIndex
      if before.hasChanged e then some { new := some e, old := some before } else none }

end Report

end EndpointAudit
