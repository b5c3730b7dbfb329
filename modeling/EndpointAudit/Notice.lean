import EndpointAudit.ClassPath.Basic

/-!
# Notices

What a scan tells its user beside the report: what it skipped and what it could not analyse. Runs
that are verbose also tell what has been looked at.
-/

namespace EndpointAudit

inductive Severity where
  | info
  | warning
  | error
deriving DecidableEq, Repr

def Severity.name : Severity → String
  | .info => "INFO"
  | .warning => "WARNING"
  | .error => "ERROR"

/-- Something a scan tells its user. -/
inductive Notice where
  | skippedEntry (entry : String)
  | skippedClass (typeName : String) (reason : Unavailable)
  | filterUnavailable (filterType : String) (reason : Unavailable)
  | configUnavailable (configMethod : String) (reason : Unavailable)
  | invalidOutput (step message : String)
  | controllerRead (typeName : String) (endpoints : Nat)
  | filterAnalyzed (filterType : String) (patterns : List String)
  | chainClassified (configMethod : String) (features : List String)
deriving DecidableEq, Repr

namespace Notice

def severity : Notice → Severity
  | .invalidOutput _ _ => .error
  | .controllerRead _ _ | .filterAnalyzed _ _ | .chainClassified _ _ => .info
  | _ => .warning

/-- Texts as a list, or a word in their place if there are none. -/
def listed (texts : List String) (none : String) : String :=
  if texts.isEmpty then none else Text.quotedList texts

def message (words : Option String := none) : Notice → String
  | .skippedEntry entry => s!"Skipping classpath entry {entry}: not a directory or archive"
  | .skippedClass typeName reason => s!"Skipping {typeName}: " ++ reason.message words
  | .filterUnavailable filterType reason =>
    s!"Cannot analyze filter {filterType}: " ++ reason.message words
  | .configUnavailable configMethod reason =>
    s!"Cannot analyze {configMethod}: " ++ reason.message words
  | .invalidOutput step message => s!"Step {step} produced invalid output: {message}"
  | .controllerRead typeName endpoints => s!"Controller {typeName}: {endpoints} endpoint(s)"
  | .filterAnalyzed filterType patterns =>
    "Filter " ++ Naming.simpleName filterType ++ " applies to " ++
      listed patterns "nothing detectable"
  | .chainClassified configMethod features =>
    s!"Security features detected in {configMethod}: " ++ listed features "none"

def line (words : Option String := none) (n : Notice) : String :=
  n.severity.name ++ " " ++ n.message words

end Notice

/-- What has been told so far. Remarks are told by verbose runs only. -/
@[ext]
structure Log where
  notices : List Notice := []
  remarks : List Notice := []
deriving DecidableEq, Repr

namespace Log

/-- A log of what is told at once, sorted by who gets to see it. -/
def ofNotices (told : List Notice) : Log where
  notices := told.filter (·.severity ≠ .info)
  remarks := told.filter (·.severity = .info)

protected def append (first rest : Log) : Log where
  notices := first.notices ++ rest.notices
  remarks := first.remarks ++ rest.remarks

instance : Append Log := ⟨Log.append⟩

@[simp] theorem append_notices (first rest : Log) :
    (first ++ rest).notices = first.notices ++ rest.notices := rfl

@[simp] theorem append_remarks (first rest : Log) :
    (first ++ rest).remarks = first.remarks ++ rest.remarks := rfl

end Log

end EndpointAudit
