import EndpointAudit.Text.Blank
import EndpointAudit.Text.Case
import EndpointAudit.Text.Split

/-!
# Settings

What a user may set for a scan, by environment variables or on the command line.
-/

namespace EndpointAudit

structure Settings where
  /-- The header assumed for an API key when the filter does not reveal one. -/
  apiKeyHeader : String := "X-API-KEY"
  /-- The methods of a filter that handle a request, in the order in which they are tried. -/
  filterMethods : List String := ["doFilterInternal", "doFilter"]
  /-- Whether the bodies of lambdas are spliced into traces. -/
  inlineLambdas : Bool := true
deriving DecidableEq, Repr, Inhabited

namespace Settings

def variableFor (name : String) : String := "AUTHREPORT_" ++ name

def variableNames : List String :=
  ["API_KEY_HEADER", "FILTER_METHODS", "INLINE_LAMBDAS"].map variableFor

def lookup? (environment : List (String × String)) (name : String) : Option String :=
  (environment.find? (·.1 == variableFor name)).map (·.2)

/-- The words that turn a switch off. -/
def noWords : List String := ["0", "false", "no", "off"]

/-- The settings made by an environment. Blank values are as good as none, but for the switch,
which anything but a word for "no" turns on. -/
def ofEnvironment (environment : List (String × String)) : Settings :=
  let header := Text.strip ((lookup? environment "API_KEY_HEADER").getD "")
  let methods := ((Text.splitOn ',' ((lookup? environment "FILTER_METHODS").getD "")).map
    Text.strip).filter (· != "")
  let standard : Settings := {}
  { apiKeyHeader := if header = "" then standard.apiKeyHeader else header
    filterMethods := if methods.isEmpty then standard.filterMethods else methods
    inlineLambdas := (lookup? environment "INLINE_LAMBDAS").all fun value =>
      !noWords.contains (Text.lower (Text.strip value)) }

end Settings

end EndpointAudit
