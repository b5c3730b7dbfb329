import EndpointAudit.Proofs.Chain.Classification
import EndpointAudit.Proofs.Text.Split

/-!
# The session policy of a trace

Every call that configures sessions offers a policy: the one that a constant next to the call names,
where the constant before it comes first, or else what the method itself says. The policy of the
trace is the first of the most specific ones that are offered, and it is the only one that leaves a
tag. Offers are found by their place in the trace, so a constant between two such calls counts for
both of them.
-/

namespace EndpointAudit.Chain

/-- The session policy that an event names: only constants do. -/
def namedPolicy? (event : Event) : Option SessionPolicy :=
  event.constant?.bind sessionMarker?

/-- The session policy named next to a place of a trace, by the event before it or else by the one
behind it. -/
def policyBeside? (events : List Event) (i : Nat) : Option SessionPolicy :=
  ((events.take i).getLast?.bind namedPolicy?).or (events[i + 1]?.bind namedPolicy?)

/-- The session policy that is offered at a place of a trace, if a call there configures
sessions. -/
def offerAt? (events : List Event) (i : Nat) : Option SessionPolicy :=
  match events[i]? with
  | some (.call c) =>
    if isCustomSession c then some ((policyBeside? events i).getD .custom)
    else if isSessionConfig c then some ((policyBeside? events i).getD .standard)
    else none
  | _ => none

/-- The session policies that a trace offers, in order. -/
def sessionOffers (events : List Event) : List SessionPolicy :=
  (List.range events.length).filterMap (offerAt? events)

/-! ## Windows by their place -/

private theorem length_windowsAfter (previous : Option Event) (produced : Option String)
    (events : List Event) : (windowsAfter previous produced events).length = events.length := by
  induction events generalizing previous produced with
  | nil => rfl
  | cons e events ih => simp [windowsAfter, ih]

private theorem getElem?_windowsAfter (previous : Option Event) (produced : Option String)
    (events : List Event) (i : Nat) : ∃ produced',
      (windowsAfter previous produced events)[i]? = events[i]?.map fun event =>
        { event, previous := (events.take i).getLast?.or previous, next := events[i + 1]?,
          produced := produced' } := by
  induction events generalizing previous produced i with
  | nil => exact ⟨none, by simp [windowsAfter]⟩
  | cons e events ih =>
    cases i with
    | zero =>
      refine ⟨produced, ?_⟩
      simp [windowsAfter, List.head?_eq_getElem?]
    | succ i =>
      obtain ⟨produced', h⟩ := ih (some e) (producedAfter e produced) i
      refine ⟨produced', ?_⟩
      simp [windowsAfter, h, List.getLast?_cons]

private theorem filterMap_eq_filterMap_range {α β : Type} {f : α → Option β} {g : Nat → Option β}
    (xs : List α) (h : ∀ i, xs[i]?.bind f = g i) :
    xs.filterMap f = (List.range xs.length).filterMap g := by
  induction xs generalizing g with
  | nil => rfl
  | cons x xs ih =>
    rw [List.length_cons, List.range_succ_eq_map, List.filterMap_cons, List.filterMap_cons,
      List.filterMap_map, ← h 0, ih fun i => h (i + 1)]
    rfl

private theorem offeredPolicy_eq (w : Window) (c : Call) : offeredPolicy w c =
    ((w.previous.bind namedPolicy?).or (w.next.bind namedPolicy?)).getD
      (if isCustomSession c then .custom else .standard) := by
  unfold offeredPolicy
  congr 1
  have hbind : ∀ e : Option Event, e.bind namedPolicy? =
      (e.bind Event.constant?).bind sessionMarker? := by
    intro e
    rw [Option.bind_assoc]
    rfl
  have hfind : ∀ text : Option String, text.toList.findSome? sessionMarker? =
      text.bind sessionMarker? := by
    intro text
    cases text <;> simp
  rw [hbind, hbind, Window.adjacentConstants_eq, List.findSome?_append, hfind, hfind]

private theorem filterMap_offered? (events : List Event) :
    (windows events).filterMap Window.offered? = sessionOffers events := by
  rw [sessionOffers, ← length_windowsAfter none none events]
  apply filterMap_eq_filterMap_range
  intro i
  obtain ⟨produced, hwindow⟩ := getElem?_windowsAfter none none events i
  rw [windows, hwindow, Option.or_none, offerAt?]
  cases hevent : events[i]? with
  | none => rfl
  | some event =>
    cases event with
    | constant | branch => rfl
    | call c =>
      simp only [Option.map_some, Option.bind_some, Window.offered?, Rule.applies, Rule.appliesTo,
        Event.call?, Option.any_some, offeredPolicy_eq, policyBeside?]
      cases isCustomSession c <;> cases isSessionConfig c <;> simp

/-! ## The policy and its tag -/

private theorem sessionOffers_eq_nil_iff (events : List Event) : sessionOffers events = [] ↔
    ∀ c, .call c ∈ events → isSessionConfig c = false ∧ isCustomSession c = false := by
  rw [sessionOffers, List.filterMap_eq_nil_iff]
  constructor
  · intro hnone c hc
    obtain ⟨i, hi, heq⟩ := List.mem_iff_getElem.mp hc
    have hoffer := hnone i (List.mem_range.mpr hi)
    rw [offerAt?, List.getElem?_eq_getElem hi, heq] at hoffer
    cases hcustom : isCustomSession c <;> cases hconfig : isSessionConfig c <;> simp_all
  · intro hnone i _
    rw [offerAt?]
    cases hevent : events[i]? with
    | none => rfl
    | some event =>
      cases event with
      | constant | branch => rfl
      | call c =>
        obtain ⟨hconfig, hcustom⟩ := hnone c (List.mem_of_getElem? hevent)
        simp [hconfig, hcustom]

private theorem startsWith_of_tag? {rule : Rule} {x : String} (h : rule.tag? = some x) :
    Text.startsWith x "Session Management: " = false := by
  cases rule <;> simp only [Rule.tag?, Option.some.injEq, reduceCtorEq] at h <;> subst h <;> decide

private theorem classify_sessionTags (events : List Event) :
    (classify events).features.filter (Text.startsWith · "Session Management: ") =
      TagSet.ofList ((classify events).sessionPolicy.map
        ("Session Management: " ++ SessionPolicy.name ·)).toList := by
  ext x
  rw [TagSet.mem_filter, TagSet.mem_ofList, classify, mem_classifyBy_features]
  constructor
  · rintro ⟨⟨w, -, rule, -, -, htag⟩ | ⟨policy, hpolicy, rfl⟩, hstart⟩
    · rw [startsWith_of_tag? htag] at hstart
      cases hstart
    · rw [hpolicy]
      exact List.mem_singleton_self _
  · intro hx
    obtain ⟨policy, hpolicy, rfl⟩ := Option.map_eq_some_iff.mp (Option.mem_toList.mp hx)
    exact ⟨.inr ⟨policy, hpolicy, rfl⟩, Text.startsWith_append _ _⟩

/-- **How a trace treats sessions.** The policy is the first of the highest rank among those that
are offered, none if no call configures sessions, and its tag is the only one of its kind. -/
theorem classify_sessions (events : List Event) :
    ((classify events).sessionPolicy = none ↔
      ∀ c, .call c ∈ events → isSessionConfig c = false ∧ isCustomSession c = false) ∧
    SessionPolicy.IsFirstMaximal (sessionOffers events) (classify events).sessionPolicy ∧
    (classify events).features.filter (Text.startsWith · "Session Management: ") =
      TagSet.ofList ((classify events).sessionPolicy.map
        ("Session Management: " ++ SessionPolicy.name ·)).toList := by
  have hfirst : SessionPolicy.IsFirstMaximal (sessionOffers events)
      (classify events).sessionPolicy := by
    rw [classify_sessionPolicy, filterMap_offered?]
    exact SessionPolicy.isFirstMaximal_offerAll none (sessionOffers events)
  exact ⟨hfirst.eq_none_iff.trans (sessionOffers_eq_nil_iff events), hfirst,
    classify_sessionTags events⟩

-- A constant between two calls counts for both.
example :
    sessionOffers
      [.call ⟨"HttpSecurity", "maximumSessions", "()V"⟩,
        .call ⟨"HttpSecurity", "sessionManagement", "()V"⟩, .constant "if_required",
        .call ⟨"HttpSecurity", "sessionFixation", "()V"⟩, .constant "NEVER"] =
      [.custom, .ifRequired, .ifRequired] := by
  decide +kernel

end EndpointAudit.Chain
