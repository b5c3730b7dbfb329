import EndpointAudit.Data.Assoc
import EndpointAudit.Report.Basic
import EndpointAudit.Text.Quoted

/-!
# Checking a report against its records

A report is accepted if its groups partition the records it was built from: every entry stands in
the group of its expression, no expression has two groups, and every record appears as often as it
was given.
-/

namespace EndpointAudit

/-- What a record and its entry must have in common: path, verb and expression. -/
structure Identity where
  path : String
  verb : String
  expression : String
deriving DecidableEq, Repr

namespace Identity

def ofRecord (r : EndpointRecord) : Identity := ⟨r.path, r.verb.name, r.authExpression⟩

def ofEntry (e : Entry) : Identity := ⟨e.path, e.verb.name, e.authExpression⟩

/-- The order by path, then verb, then expression. -/
def le (a b : Identity) : Bool :=
  if a.path ≠ b.path then decide (a.path < b.path)
  else if a.verb ≠ b.verb then decide (a.verb < b.verb)
  else decide (a.expression ≤ b.expression)

/-- Whether every identity occurs as often in one list as in another. -/
def sameCounts (xs ys : List Identity) : Bool :=
  (xs ++ ys).all fun i => xs.count i == ys.count i

/-- The identities that occur more often in one list than in another, each once and in order. -/
def excess (more less : List Identity) : List Identity :=
  ((more.eraseDups).filter fun i => less.count i < more.count i).mergeSort le

end Identity

/-- Why a report does not fit its records. -/
inductive PartitionError where
  /-- An entry stands in a group with another expression. -/
  | misfiled (entry : Entry) (group : String)
  /-- These expressions have several groups. -/
  | repeated (expressions : List String)
  /-- Records that the report lacks, and entries that it has in excess. -/
  | mismatch (missing extra : List Identity)
deriving DecidableEq, Repr

def PartitionError.message : PartitionError → String
  | .misfiled entry _ => "Endpoint " ++ entry.label ++ " filed under the wrong group"
  | .repeated expressions => "Expressions grouped more than once: " ++ Text.quotedList expressions
  | .mismatch _ _ => "Report groups do not partition the endpoints"

namespace Report

/-- The first entry that stands in a group with another expression. -/
def misfiled? (groups : List Group) : Option PartitionError :=
  groups.findSome? fun g =>
    (g.endpoints.find? (·.authExpression != g.authExpression)).map (.misfiled · g.authExpression)

def repeated {α : Type} [BEq α] (xs : List α) : List α :=
  ((Assoc.tally xs).filter (1 < ·.2)).map (·.1)

/-- Accepts a report whose groups partition the records. -/
def checkPartition (records : List EndpointRecord) (report : Report) :
    Except PartitionError Unit :=
  match misfiled? report.groups with
  | some e => .error e
  | none =>
    let twice := repeated (report.groups.map (·.authExpression))
    if !twice.isEmpty then .error (.repeated twice)
    else
      let expected := records.map Identity.ofRecord
      let seen := report.endpoints.map Identity.ofEntry
      if Identity.sameCounts expected seen then .ok ()
      else .error (.mismatch (Identity.excess expected seen) (Identity.excess seen expected))

/-- The labels of the endpoints that several records have in common. -/
def duplicateLabels (records : List EndpointRecord) : List String :=
  (repeated (records.map fun r => (r.path, r.verb))).map fun (path, verb) =>
    verb.name ++ " " ++ path

end Report

end EndpointAudit
