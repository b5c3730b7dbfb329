import EndpointAudit.Report.Diff
import EndpointAudit.Text.Markup
import EndpointAudit.Text.Quoted
import EndpointAudit.Trace.Event

/-!
# Reports on the console

What is printed for a report, for a difference and for a trace: lines of text and tables, both with
style tags.
-/

namespace EndpointAudit

inductive Printed where
  | line (markup : String)
  /-- A table: its title, the header and the style of each column, and the cells of each row. -/
  | table (title : String) (columns : List (String × String)) (rows : List (List String))
deriving DecidableEq, Repr

namespace Render

def yesNo (flag : Bool) : String := if flag then "[green]yes[/green]" else "no"

def apiKeyCell (e : Entry) : String :=
  if !e.apiKeyRequired then "no"
  else match e.apiKeyHeader with
    | some header =>
      if header = "" then yesNo true else "[green]yes[/green] (" ++ Text.escape header ++ ")"
    | none => yesNo true

def sessionCell (e : Entry) : String := (e.sessionPolicy.map (·.name)).getD "-"

def featuresCell (e : Entry) : String :=
  let features := Text.join "\n" (e.features.map Text.escape)
  if features = "" then "-" else features

def entryRow (e : Entry) : List String :=
  [e.verb.name, Text.escape (Route.shorten e.path 60), apiKeyCell e, yesNo e.basicAuthRequired,
    if e.csrfEnabled then "enabled" else "[red]disabled[/red]", sessionCell e, featuresCell e]

def groupTable (g : Group) : Printed :=
  let count := g.endpoints.length
  .table (Text.escape g.authExpression ++ s!" ({count})")
    [("Verb", "cyan"), ("Path", ""), ("API Key", ""), ("Basic", ""), ("CSRF", ""), ("Session", ""),
      ("Features", "")]
    (g.endpoints.map entryRow)

/-- What is printed for a report: a heading and a table for each expression. -/
def report (r : Report) : List Printed :=
  [.line "[bold]Authorization Report[/bold]",
    .line ("  Generated: " ++ r.generatedAt.isoText),
    .line ("  Endpoints: " ++ toString r.totalEndpoints),
    .line ("  Authorization expressions: " ++ toString r.uniqueExpressions),
    .line ""] ++
  r.groups.flatMap fun g => [groupTable g, .line ""]

def flag (b : Bool) : String := if b then "True" else "False"

def fieldChange {α : Type} [DecidableEq α] (name : String) (text : α → String) (before after : α) :
    List String :=
  if before = after then [] else [name ++ ": " ++ text before ++ " → " ++ text after]

/-- What has changed from one entry to another: first the fields, then the features that were
gained and those that were lost. -/
def entryChanges (old new : Entry) : List String :=
  fieldChange "auth_expression" id old.authExpression new.authExpression ++
  fieldChange "verb" HttpVerb.name old.verb new.verb ++
  fieldChange "api_key_required" flag old.apiKeyRequired new.apiKeyRequired ++
  fieldChange "basic_auth_required" flag old.basicAuthRequired new.basicAuthRequired ++
  fieldChange "csrf_enabled" flag old.csrfEnabled new.csrfEnabled ++
  fieldChange "session_management_policy" (fun p => (p.map SessionPolicy.name).getD "-")
    old.sessionPolicy new.sessionPolicy ++
  ((TagSet.ofList new.features).diff (TagSet.ofList old.features)).toList.map ("+ " ++ ·) ++
  ((TagSet.ofList old.features).diff (TagSet.ofList new.features)).toList.map ("- " ++ ·)

/-- What has changed in an endpoint that both reports have. -/
def changes (d : EndpointDiff) : List String :=
  match d.old, d.new with
  | some old, some new => entryChanges old new
  | _, _ => []

/-- The row of an endpoint of which one side is shown. -/
def diffRow (kind : String) (shown : Option Entry) (details : Entry → String) :
    Option (List String) :=
  shown.map fun e => [kind, Text.escape e.label, Text.escape e.authExpression, details e]

/-- The rows of a difference: what was added, removed and changed. -/
def diffRows (d : DiffReport) : List (List String) :=
  d.added.filterMap (fun a => diffRow "[green]added[/green]" a.new featuresCell) ++
  d.removed.filterMap (fun r => diffRow "[red]removed[/red]" r.old fun _ => "-") ++
  d.changed.filterMap (fun c => diffRow "[yellow]changed[/yellow]" c.new fun _ =>
    Text.join "\n" ((changes c).map Text.escape))

def diff (d : DiffReport) : List Printed :=
  if d.isEmpty then [.line "[green]No authorization changes.[/green]"]
  else
    let added := d.added.length
    let removed := d.removed.length
    let changed := d.changed.length
    [.table "Authorization Changes"
      [("Change", "cyan"), ("Endpoint", ""), ("Authorization", ""), ("Details", "")] (diffRows d),
      .line s!"  {added} added, {removed} removed, {changed} changed"]

def event : Event → String
  | .constant text => "[green]const[/green]  " ++ Text.escape (Text.quoted text)
  | .branch negated => "[yellow]branch[/yellow] " ++ if negated then "negated" else "direct"
  | .call c => "[cyan]call[/cyan]   " ++ Text.escape (c.owner ++ "." ++ c.name ++ c.descriptor)

/-- What is printed for the trace of a method: the events, numbered from zero. -/
def trace (method : String) (events : List Event) : List Printed :=
  let count := events.length
  .line ("[bold]" ++ method ++ s!"[/bold] ({count} events)") ::
    events.zipIdx.map fun (e, n) =>
      .line ("  " ++ Text.padLeft ' ' 4 (toString n) ++ "  " ++ event e)

end Render

end EndpointAudit
