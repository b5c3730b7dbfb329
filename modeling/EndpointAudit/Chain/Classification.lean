import EndpointAudit.Chain.Window
import EndpointAudit.Endpoint.SessionPolicy
import EndpointAudit.Text.TagSet

/-!
# Classification of filter chains

The security features of a filter chain are read off the trace of the method that configures it.
Every rule is tried on every window of the trace; rules only ever add to what is known.
-/

namespace EndpointAudit.Chain

def basicAuthTag : String := "Basic Authentication"

def apiKeyTag : String := "API Key Authentication"

def csrfDisabledTag : String := "CSRF Disabled"

def jwtTag : String := "JWT Authentication"

def oauth2Tag : String := "OAuth2 Authentication"

structure Classification where
  basicAuth : Bool := false
  apiKey : Bool := false
  /-- An API key is asked for by the chain itself and not by an inserted filter. -/
  chainWideApiKey : Bool := false
  sessionPolicy : Option SessionPolicy := none
  features : TagSet := ∅
  /-- The types of the inserted filters in order of insertion, each once. -/
  filters : List String := []
deriving DecidableEq, Repr

namespace Classification

def addTag (c : Classification) (tag : String) : Classification :=
  { c with features := c.features.insert tag }

def addFilter (c : Classification) (filterType : String) : Classification :=
  if c.filters.contains filterType then c else { c with filters := c.filters ++ [filterType] }

/-- With a session policy that counts if it says more than the one known. -/
def offerPolicy (c : Classification) (policy : SessionPolicy) : Classification :=
  { c with sessionPolicy := policy.offer c.sessionPolicy }

def tagPolicy (c : Classification) : Classification :=
  match c.sessionPolicy with
  | some policy => c.addTag policy.tag
  | none => c

end Classification

/-! ## What calls look like -/

/-- Whether the owner of a call builds the security of web requests. -/
def isSecurityBuilder (owner : String) : Bool :=
  Text.contains (Naming.simpleName owner) "HttpSecurity"

def isFilterInsertion (c : Call) : Bool :=
  ["addFilterBefore", "addFilterAfter", "addFilterAt", "addFilter"].contains c.name

/-- Whether owner, name or descriptor of a call speak of an API key. -/
def mentionsApiKey (c : Call) : Bool :=
  let words := Naming.squash (c.owner ++ " " ++ c.name ++ " " ++ c.descriptor)
  Text.contains words "apikey" || Text.contains words "tokenauth"

def configuresOrAddsFilter (name : String) : Bool :=
  let name := Text.lower name
  Text.contains name "configure" || Text.startsWith name "addfilter"

def isSessionConfig (c : Call) : Bool :=
  ["sessionManagement", "sessionCreationPolicy"].contains c.name

/-- Whether a call configures sessions in a way of its own. -/
def isCustomSession (c : Call) : Bool :=
  ["sessionAuthenticationStrategy", "maximumSessions", "sessionFixation",
    "sessionRegistry"].contains c.name

/-- The policies that constants name, in the order in which they are looked for. -/
def markers : List SessionPolicy := [.ifRequired, .stateless, .always, .never]

/-- The session policy that a constant names in any case. -/
def sessionMarker? (constant : String) : Option SessionPolicy :=
  markers.find? fun policy => Text.contains (Text.upper constant) policy.name

/-- The session policy that a call offers: the first one named by a constant next to it, or else
what the call itself says. -/
def offeredPolicy (w : Window) (c : Call) : SessionPolicy :=
  (w.adjacentConstants.findSome? sessionMarker?).getD
    (if isCustomSession c then .custom else .standard)

/-! ## Rules -/

inductive Rule where
  | basicAuth
  | apiKeyCall
  | apiKeyFilter
  | session
  | csrfDisabled
  | jwt
  | oauth2
  | filterInsertion
deriving DecidableEq, Repr

namespace Rule

/-- All rules, in the order in which they are tried. -/
def all : List Rule :=
  [.basicAuth, .apiKeyCall, .apiKeyFilter, .session, .csrfDisabled, .jwt, .oauth2,
    .filterInsertion]

def name : Rule → String
  | .basicAuth => "basic-auth"
  | .apiKeyCall => "api-key-call"
  | .apiKeyFilter => "api-key-filter"
  | .session => "session-management"
  | .csrfDisabled => "csrf-disabled"
  | .jwt => "jwt"
  | .oauth2 => "oauth2"
  | .filterInsertion => "filter-insertion"

/-- Whether a call switches off the protection against request forgery: by a method of that name
that is told to, by the configurer's own method, or by handing that method to the builder. -/
def disablesCsrf (w : Window) (c : Call) : Bool :=
  (isSecurityBuilder c.owner && Text.contains (Text.lower c.name) "csrf" &&
    Text.contains (Text.lower c.descriptor) "disable") ||
  (c.name == "disable" && Text.contains (Text.lower (Naming.simpleName c.owner)) "csrf") ||
  (isSecurityBuilder c.owner && c.name == "csrf" &&
    ((w.previous.bind Event.call?).any fun p => p.name == "disable"))

def appliesTo (rule : Rule) (w : Window) (c : Call) : Bool :=
  match rule with
  | .basicAuth => isSecurityBuilder c.owner && c.name == "httpBasic"
  | .apiKeyCall => !isFilterInsertion c && (producedFilter? c).isNone && mentionsApiKey c
  | .apiKeyFilter => isFilterInsertion c &&
      w.insertedFilter?.any fun f => Text.contains (Naming.simpleName f) "ApiKeyAuthFilter"
  | .session => isSessionConfig c || isCustomSession c
  | .csrfDisabled => disablesCsrf w c
  | .jwt =>
    (Text.contains (Text.lower c.owner) "jwt" && configuresOrAddsFilter c.name) ||
    (c.name == "jwt" && Text.contains (Text.lower c.owner) "oauth2")
  | .oauth2 =>
    (Text.contains (Text.lower c.owner) "oauth2" && configuresOrAddsFilter c.name) ||
    (isSecurityBuilder c.owner &&
      ["oauth2ResourceServer", "oauth2Login", "oauth2Client"].contains c.name)
  | .filterInsertion => isFilterInsertion c && w.insertedFilter?.isSome

/-- Whether a rule applies to a window; it never does unless the event is a call. -/
def applies (rule : Rule) (w : Window) : Bool :=
  w.event.call?.any (rule.appliesTo w)

/-- What a rule adds when it applies to a window on a call. -/
def effect (rule : Rule) (w : Window) (c : Call) (known : Classification) : Classification :=
  match rule with
  | .basicAuth => { known with basicAuth := true }.addTag basicAuthTag
  | .apiKeyCall => { known with apiKey := true, chainWideApiKey := true }.addTag apiKeyTag
  | .apiKeyFilter => { known with apiKey := true }.addTag apiKeyTag
  | .session => known.offerPolicy (offeredPolicy w c)
  | .csrfDisabled => known.addTag csrfDisabledTag
  | .jwt => known.addTag jwtTag
  | .oauth2 => known.addTag oauth2Tag
  | .filterInsertion =>
    match w.insertedFilter? with
    | some filterType => known.addFilter filterType
    | none => known

/-- What is known after a rule has been tried on a window. -/
def apply (w : Window) (known : Classification) (rule : Rule) : Classification :=
  match w.event with
  | .call c => if rule.appliesTo w c then rule.effect w c known else known
  | _ => known

end Rule

def classifyBy (rules : List Rule) (trace : List Event) : Classification :=
  ((windows trace).foldl (fun known w => rules.foldl (Rule.apply w) known) {}).tagPolicy

def classify (trace : List Event) : Classification := classifyBy Rule.all trace

end EndpointAudit.Chain
