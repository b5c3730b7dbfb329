import EndpointAudit.Route
import EndpointAudit.Trace.Event

/-!
# Path checks

A filter compares the path of the request with string literals. A check is read off the filter's
trace by a small machine: the path is read, a constant is loaded (before or after), the two are
compared, and a branch tests the outcome. If the branch is negated the filter acts on every other
path, so the wildcard takes the place of the literal.
-/

namespace EndpointAudit.Filter

def readsPath (c : Call) : Bool :=
  ["getRequestURI", "getServletPath", "getPathInfo", "getRequestURL"].contains c.name

def comparesTexts (c : Call) : Bool :=
  ["equals", "equalsIgnoreCase", "startsWith"].contains c.name

/-- How much of a check has been seen. `negated` tells whether a negated branch has been seen since
the path was read. -/
inductive Stage where
  /-- The path has not been read; a constant may have been loaded. -/
  | idle (loaded : Option String)
  | pathRead (negated : Bool)
  | constant (text : String) (negated : Bool)
  /-- The comparison has been made, and its branch is to come. -/
  | awaitBranch (text : String) (negated : Bool)
deriving DecidableEq, Repr

namespace Stage

/-- The constant loaded last, if it may still be compared. -/
def lastConstant : Stage → Option String
  | .idle loaded => loaded
  | .pathRead _ => none
  | .constant text _ | .awaitBranch text _ => some text

def pendingNegation : Stage → Bool
  | .idle _ => false
  | .pathRead negated | .constant _ negated | .awaitBranch _ negated => negated

def onConstant (text : String) : Stage → Stage
  | .idle _ => .idle (some text)
  | .pathRead negated | .constant _ negated | .awaitBranch _ negated => .constant text negated

/-- The stage after a branch that does not test a comparison. -/
def onBranch (branch : Bool) : Stage → Stage
  | .idle loaded => .idle loaded
  | .pathRead negated => .pathRead (negated || branch)
  | .constant text negated => .constant text (negated || branch)
  | .awaitBranch text negated => .awaitBranch text (negated || branch)

def onPathRead : Stage → Stage
  | .idle none => .pathRead false
  | .idle (some text) => .constant text false
  | stage => stage

def onComparison : Stage → Stage
  | .constant text negated => .awaitBranch text negated
  | .idle _ => .idle none
  | stage => stage

/-- The stage after any other call, which uses up the constant. -/
def onOtherCall : Stage → Stage
  | .idle _ => .idle none
  | .constant _ negated => .pathRead negated
  | stage => stage

/-- The stage after an event that does not settle a comparison. -/
def next (event : Event) (stage : Stage) : Stage :=
  match event with
  | .constant text => stage.onConstant text
  | .branch negated => stage.onBranch negated
  | .call c =>
    if readsPath c then stage.onPathRead
    else if comparesTexts c then stage.onComparison
    else stage.onOtherCall

end Stage

/-- A reader of path checks and the patterns found so far, each once. -/
structure PathMatcher where
  stage : Stage := .idle none
  patterns : List String := []
deriving DecidableEq, Repr

namespace PathMatcher

def emit (m : PathMatcher) (text : String) (negated : Bool) : PathMatcher :=
  let pattern := if negated then Route.wildcard else text
  { stage := .idle none
    patterns := if m.patterns.contains pattern then m.patterns else m.patterns ++ [pattern] }

/-- The matcher after an event. A comparison is settled by the branch behind it, or as it stands
by any other event. -/
def feed (m : PathMatcher) (event : Event) : PathMatcher :=
  match m.stage, event with
  | .awaitBranch text negated, .branch branch => m.emit text (negated || branch)
  | .awaitBranch text negated, event =>
    let settled := m.emit text negated
    { settled with stage := settled.stage.next event }
  | stage, event => { m with stage := stage.next event }

/-- The patterns at the end of a trace, which settles an open comparison. -/
def finish (m : PathMatcher) : List String :=
  match m.stage with
  | .awaitBranch text negated => (m.emit text negated).patterns
  | _ => m.patterns

end PathMatcher

/-- The path patterns that a trace compares the path of the request with. -/
def matchPaths (trace : List Event) : List String :=
  (trace.foldl PathMatcher.feed {}).finish

end EndpointAudit.Filter
