import EndpointAudit.Filter.Header
import EndpointAudit.Filter.PathCheck
import EndpointAudit.Notice
import EndpointAudit.Settings
import EndpointAudit.Text.TagSet
import EndpointAudit.Trace.FieldStrings

/-!
# Coverage of filters

Which request paths a filter guards, which header it reads and which other filters it makes use
of, read off the trace of the method that handles a request.
-/

namespace EndpointAudit.Filter

/-- What is known of a filter type. -/
structure Coverage where
  filterType : String
  /-- The path patterns the filter guards. -/
  patterns : TagSet := ∅
  header : Option String := none
  /-- The filter types it constructs, in order, each once. -/
  delegates : List String := []
deriving DecidableEq, Repr

namespace Coverage

def name (c : Coverage) : String := Naming.simpleName c.filterType

def isWildcard (c : Coverage) : Bool := decide (Route.wildcard ∈ c.patterns)

/-- Whether one of the filter's patterns covers a path. -/
def appliesTo (c : Coverage) (path : String) : Bool :=
  c.patterns.toList.any (Route.covers · path)

/-- The patterns that cover a path, for the user to read. -/
def labelFor (c : Coverage) (path : String) : String :=
  if c.isWildcard then "all paths"
  else Text.join ", " (c.patterns.toList.filter (Route.covers · path))

end Coverage

/-- What a filter asks of a request, going by its name. -/
inductive Family where
  | apiKey
  | jwt
  | basic
  | custom
deriving DecidableEq, Repr

def Family.name : Family → String
  | .apiKey => "api_key"
  | .jwt => "jwt"
  | .basic => "basic"
  | .custom => "custom"

/-- The family of a filter type, by the words in the last segment of its dotted name. -/
def familyOf (filterType : String) : Family :=
  let words := Naming.squash (Text.afterLast '.' filterType)
  if Text.contains words "apikey" || Text.contains words "tokenauth" then .apiKey
  else if Text.contains words "jwt" then .jwt
  else if Text.contains words "basicauth" then .basic
  else .custom

/-- The filters that a trace constructs, other than the filter the trace is of. -/
def delegatesIn (filterType : String) (trace : List Event) : List String :=
  (trace.filterMap constructed).eraseDups
where
  constructed (event : Event) : Option String :=
    match event with
    | .call c =>
      if c.name = "<init>" ∧ c.owner ≠ filterType ∧
          Text.endsWith (Naming.simpleName c.owner) "Filter" then some c.owner
      else none
    | _ => none

/-- The trace of the first of the methods that can be traced. If the type itself is missing no
other method is tried; otherwise the last method tried gives the reason. -/
def traceFirst (cp : ClassPath) (inlineLambdas : Bool) (filterType : String)
    (reason : Unavailable) : List String → Except LoadError (List Event)
  | [] => .error (.unavailable reason)
  | methodName :: rest =>
    match cp.trace filterType methodName none inlineLambdas with
    | .ok trace => .ok trace
    | .error (.fatal e) => .error (.fatal e)
    | .error (.unavailable (.typeNotFound t)) => .error (.unavailable (.typeNotFound t))
    | .error (.unavailable reason) => traceFirst cp inlineLambdas filterType reason rest

/-- The trace of the method with which a filter handles a request. -/
def requestTrace (cp : ClassPath) (settings : Settings) (filterType : String) :
    Except LoadError (List Event) :=
  traceFirst cp settings.inlineLambdas filterType (.noFilterMethod filterType)
    settings.filterMethods

/-- The strings assigned to a type's fields; none if the type cannot be loaded. -/
def fieldStringsOf (cp : ClassPath) (filterType : String) : List (String × String) :=
  match cp.load filterType with
  | .ok cls => Trace.fieldStrings cls
  | .error _ => []

def Coverage.ofTrace (filterType : String) (trace : List Event)
    (fields : List (String × String)) : Coverage where
  filterType
  patterns := TagSet.ofList (matchPaths trace)
  header := (headerFromFields fields).or (headerFromTrace trace)
  delegates := delegatesIn filterType trace

/-- What is known of a filter type, and the notice on it. If it cannot be analysed nothing is
known. -/
def analyze (cp : ClassPath) (settings : Settings) (filterType : String) :
    Except ScanError (Coverage × List Notice) :=
  match requestTrace cp settings filterType with
  | .ok trace =>
    .ok (.ofTrace filterType trace (fieldStringsOf cp filterType),
      [.filterAnalyzed filterType (matchPaths trace)])
  | .error (.unavailable reason) =>
    .ok ({ filterType }, [.filterUnavailable filterType reason])
  | .error (.fatal e) => .error e

end EndpointAudit.Filter
