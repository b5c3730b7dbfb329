import EndpointAudit.Data.Basic
import EndpointAudit.Report.Diff

/-!
# Reports as documents

The documents that reports and differences are written as. Beside what a report holds they have
what can be computed from it: whether an endpoint is protected against forgery, and the totals.
-/

namespace EndpointAudit

/-- A text that may be missing. -/
def Doc.ofOption (text : Option String) : Doc := (text.map Doc.text).getD .null

def Entry.toDoc (e : Entry) : Doc :=
  .map [("path", .text e.path), ("verb", .text e.verb.name),
    ("auth_expression", .text e.authExpression), ("api_key_required", .bool e.apiKeyRequired),
    ("api_key_header", Doc.ofOption e.apiKeyHeader),
    ("basic_auth_required", .bool e.basicAuthRequired),
    ("session_management_policy", Doc.ofOption (e.sessionPolicy.map (·.name))),
    ("security_features", .list (e.features.map Doc.text)),
    ("declaring_type", Doc.ofOption e.declaringType), ("method_name", Doc.ofOption e.methodName),
    ("csrf_enabled", .bool e.csrfEnabled)]

def Group.toDoc (g : Group) : Doc :=
  .map [("auth_expression", .text g.authExpression),
    ("endpoints", .list (g.endpoints.map Entry.toDoc))]

def Report.toDoc (r : Report) : Doc :=
  .map [("generated_at", .text r.generatedAt.text), ("groups", .list (r.groups.map Group.toDoc)),
    ("total_endpoints", .int r.totalEndpoints),
    ("unique_auth_expressions", .int r.uniqueExpressions)]

def EndpointDiff.toDoc (d : EndpointDiff) : Doc :=
  .map [("new", (d.new.map Entry.toDoc).getD .null), ("old", (d.old.map Entry.toDoc).getD .null)]

def DiffReport.toDoc (d : DiffReport) : Doc :=
  .map [("added", .list (d.added.map EndpointDiff.toDoc)),
    ("removed", .list (d.removed.map EndpointDiff.toDoc)),
    ("changed", .list (d.changed.map EndpointDiff.toDoc))]

end EndpointAudit
