import EndpointAudit.Trace.Event

/-!
# Windows on a trace

An event is judged together with the events next to it and with the filter object that was made
last before it.
-/

namespace EndpointAudit.Chain

/-- The filter type that a constructor or a factory method hands back: one whose simple name ends
in `Filter`. -/
def producedFilter? (c : Call) : Option String := do
  let produced ← if c.name = "<init>" then some c.owner else c.returnType?
  if Text.endsWith (Naming.simpleName produced) "Filter" then some produced else none

def producedAfter (event : Event) (produced : Option String) : Option String :=
  match event with
  | .call c => (producedFilter? c).or produced
  | _ => produced

/-- An event with its neighbours and the filter made last before it. -/
structure Window where
  event : Event
  previous : Option Event
  next : Option Event
  produced : Option String
deriving DecidableEq, Repr

/-- The windows of a trace that follows the event `previous`. -/
def windowsAfter (previous : Option Event) (produced : Option String) : List Event → List Window
  | [] => []
  | event :: rest =>
    { event, previous, next := rest.head?, produced } ::
      windowsAfter (some event) (producedAfter event produced) rest

def windows (trace : List Event) : List Window := windowsAfter none none trace

namespace Window

def adjacentConstants (w : Window) : List String :=
  [w.previous, w.next].filterMap fun e => e.bind Event.constant?

/-- Types that are too general to name an inserted filter. -/
def generalTypes : List String :=
  ["jakarta.servlet.Filter", "javax.servlet.Filter", "java.lang.Object"]

def isConcreteType (type : String) : Bool :=
  !generalTypes.contains type && !Text.startsWith type "[" && Text.contains type "."

/-- The filter type that a call inserts into the chain: its first parameter if that is a concrete
type, otherwise the filter made last. -/
def insertedFilter? (w : Window) : Option String := do
  let call ← w.event.call?
  match call.parameterTypes with
  | type :: _ => if isConcreteType type then some type else w.produced
  | [] => w.produced

end Window

end EndpointAudit.Chain
