/-!
# Session policies

How a filter chain treats sessions. Policies are ranked by how much they say: that sessions are
managed at all, that they are managed in some way of its own, and one of the four ways that have a
name.
-/

namespace EndpointAudit

inductive SessionPolicy where
  | always
  | never
  | ifRequired
  | stateless
  /-- Sessions are managed in the default way. -/
  | standard
  | custom
deriving DecidableEq, Repr

namespace SessionPolicy

def name : SessionPolicy → String
  | .always => "ALWAYS"
  | .never => "NEVER"
  | .ifRequired => "IF_REQUIRED"
  | .stateless => "STATELESS"
  | .standard => "DEFAULT"
  | .custom => "CUSTOM"

def all : List SessionPolicy := [.always, .never, .ifRequired, .stateless, .standard, .custom]

def ofName? (name : String) : Option SessionPolicy := all.find? (·.name == name)

theorem ofName?_name (policy : SessionPolicy) : ofName? policy.name = some policy := by
  cases policy <;> decide

theorem name_injective : Function.Injective name := by
  intro a b h
  have hpolicy := ofName?_name a
  rw [h, ofName?_name] at hpolicy
  exact (Option.some.inj hpolicy).symm

/-- How specific a policy is. -/
def rank : SessionPolicy → Nat
  | .standard => 0
  | .custom => 1
  | _ => 2

/-- Whether a policy says more than what is known so far. -/
def exceeds (policy : SessionPolicy) (known : Option SessionPolicy) : Bool :=
  known.all fun k => k.rank < policy.rank

/-- What is known after a policy has been found. -/
def offer (policy : SessionPolicy) (known : Option SessionPolicy) : Option SessionPolicy :=
  if policy.exceeds known then some policy else known

def tagStart : String := "Session Management: "

def tag (policy : SessionPolicy) : String := tagStart ++ policy.name

end SessionPolicy

end EndpointAudit
