import EndpointAudit.Chain.Classification
import EndpointAudit.Proofs.Data.Assoc
import EndpointAudit.Proofs.Endpoint.PolicyRank

/-!
# Where a classification comes from

Rules only add to what is known, so everything in the classification of a trace was added by a rule
at one of the windows. What the rules say in flags and tags is traced back to the windows. The
session policy and the filters are each set by one rule, and depend on the order of the windows but
not on the other rules.
-/

namespace EndpointAudit.Chain

namespace Classification

private theorem addFilter_apiKey (c : Classification) (filterType : String) :
    (c.addFilter filterType).apiKey = c.apiKey := by
  unfold addFilter
  split <;> rfl

private theorem addFilter_chainWideApiKey (c : Classification) (filterType : String) :
    (c.addFilter filterType).chainWideApiKey = c.chainWideApiKey := by
  unfold addFilter
  split <;> rfl

private theorem addFilter_basicAuth (c : Classification) (filterType : String) :
    (c.addFilter filterType).basicAuth = c.basicAuth := by
  unfold addFilter
  split <;> rfl

private theorem addFilter_features (c : Classification) (filterType : String) :
    (c.addFilter filterType).features = c.features := by
  unfold addFilter
  split <;> rfl

private theorem addFilter_sessionPolicy (c : Classification) (filterType : String) :
    (c.addFilter filterType).sessionPolicy = c.sessionPolicy := by
  unfold addFilter
  split <;> rfl

private theorem tagPolicy_apiKey (c : Classification) : c.tagPolicy.apiKey = c.apiKey := by
  unfold tagPolicy
  split <;> rfl

private theorem tagPolicy_chainWideApiKey (c : Classification) :
    c.tagPolicy.chainWideApiKey = c.chainWideApiKey := by
  unfold tagPolicy
  split <;> rfl

private theorem tagPolicy_filters (c : Classification) : c.tagPolicy.filters = c.filters := by
  unfold tagPolicy
  split <;> rfl

private theorem tagPolicy_basicAuth (c : Classification) : c.tagPolicy.basicAuth = c.basicAuth := by
  unfold tagPolicy
  split <;> rfl

theorem tagPolicy_sessionPolicy (c : Classification) :
    c.tagPolicy.sessionPolicy = c.sessionPolicy := by
  unfold tagPolicy
  split <;> rfl

theorem mem_tagPolicy_features (c : Classification) (x : String) :
    x ∈ c.tagPolicy.features ↔
      x ∈ c.features ∨ ∃ policy, c.sessionPolicy = some policy ∧ x = policy.tag := by
  unfold tagPolicy
  cases c.sessionPolicy <;> simp [addTag, or_comm]

end Classification

namespace Rule

open Classification

theorem apply_of_applies {rule : Rule} {w : Window} (h : rule.applies w = true) :
    ∃ c, w.event = .call c ∧ rule.appliesTo w c = true ∧
      ∀ known, apply w known rule = rule.effect w c known := by
  unfold applies at h
  cases hevent : w.event with
  | call c =>
    rw [hevent] at h
    refine ⟨c, rfl, h, fun known => ?_⟩
    rw [apply, hevent]
    exact if_pos h
  | constant | branch => simp [hevent, Event.call?] at h

theorem apply_of_not_applies {rule : Rule} {w : Window} (h : rule.applies w = false)
    (known : Classification) : apply w known rule = known := by
  unfold applies at h
  unfold apply
  cases hevent : w.event with
  | call c =>
    rw [hevent] at h
    exact if_neg (Bool.eq_false_iff.mp h)
  | constant | branch => rfl

/-- The rules that say that an API key is asked for. -/
def AsksForKey (rule : Rule) : Prop := rule = .apiKeyCall ∨ rule = .apiKeyFilter

private theorem effect_apiKey (rule : Rule) (w : Window) (c : Call) (known : Classification) :
    (rule.effect w c known).apiKey = true ↔ known.apiKey = true ∨ rule.AsksForKey := by
  cases rule with
  | filterInsertion =>
    cases h : w.insertedFilter? <;> simp [effect, h, AsksForKey, addFilter_apiKey]
  | _ => simp [effect, AsksForKey, addTag, offerPolicy]

private theorem effect_chainWideApiKey (rule : Rule) (w : Window) (c : Call)
    (known : Classification) :
    (rule.effect w c known).chainWideApiKey = true ↔
      known.chainWideApiKey = true ∨ rule = .apiKeyCall := by
  cases rule with
  | filterInsertion =>
    cases h : w.insertedFilter? <;> simp [effect, h, addFilter_chainWideApiKey]
  | _ => simp [effect, addTag, offerPolicy]

private theorem effect_basicAuth (rule : Rule) (w : Window) (c : Call) (known : Classification) :
    (rule.effect w c known).basicAuth = true ↔ known.basicAuth = true ∨ rule = .basicAuth := by
  cases rule with
  | filterInsertion =>
    cases h : w.insertedFilter? <;> simp [effect, h, addFilter_basicAuth]
  | _ => simp [effect, addTag, offerPolicy]

/-- The tag that a rule leaves. -/
def tag? : Rule → Option String
  | .basicAuth => some basicAuthTag
  | .apiKeyCall | .apiKeyFilter => some apiKeyTag
  | .csrfDisabled => some csrfDisabledTag
  | .jwt => some jwtTag
  | .oauth2 => some oauth2Tag
  | .session | .filterInsertion => none

private theorem mem_effect_features (x : String) (rule : Rule) (w : Window) (c : Call)
    (known : Classification) :
    x ∈ (rule.effect w c known).features ↔ x ∈ known.features ∨ rule.tag? = some x := by
  cases rule with
  | filterInsertion =>
    cases h : w.insertedFilter? <;> simp [effect, h, tag?, addFilter_features]
  | _ => simp [effect, tag?, addTag, offerPolicy, or_comm, eq_comm]

end Rule

/-- What a property that rules can only bring about comes from: it held before, or a rule brings it
about at a window where the rule applies. -/
theorem foldl_apply_iff {P : Classification → Prop} {Q : Rule → Window → Prop}
    (heffect : ∀ rule w c known, P (rule.effect w c known) ↔ P known ∨ Q rule w)
    (rules : List Rule) (ws : List Window) (known : Classification) :
    P (ws.foldl (fun known w => rules.foldl (Rule.apply w) known) known) ↔
      P known ∨ ∃ w ∈ ws, ∃ rule ∈ rules, rule.applies w = true ∧ Q rule w := by
  have hstep : ∀ w known rule, P (Rule.apply w known rule) ↔
      P known ∨ (rule.applies w = true ∧ Q rule w) := by
    intro w known rule
    cases happlies : rule.applies w with
    | false => simp [Rule.apply_of_not_applies happlies]
    | true =>
      obtain ⟨c, -, -, heq⟩ := Rule.apply_of_applies happlies
      rw [heq, heffect]
      simp
  have hwindow : ∀ w known, P (rules.foldl (Rule.apply w) known) ↔
      P known ∨ ∃ rule ∈ rules, rule.applies w = true ∧ Q rule w := by
    intro w known
    induction rules generalizing known with
    | nil => simp
    | cons rule rules ih => rw [List.foldl_cons, ih, hstep]; simp [or_assoc]
  induction ws generalizing known with
  | nil => simp
  | cons w ws ih =>
    rw [List.foldl_cons]
    refine (ih _).trans ?_
    rw [hwindow]
    simp [or_assoc]

variable (rules : List Rule) (trace : List Event)

theorem classifyBy_apiKey :
    (classifyBy rules trace).apiKey = true ↔
      ∃ w ∈ windows trace, ∃ rule ∈ rules, rule.applies w = true ∧ rule.AsksForKey := by
  rw [classifyBy, Classification.tagPolicy_apiKey,
    foldl_apply_iff (P := fun c => c.apiKey = true) Rule.effect_apiKey]
  simp

theorem classifyBy_chainWideApiKey :
    (classifyBy rules trace).chainWideApiKey = true ↔
      ∃ w ∈ windows trace, ∃ rule ∈ rules, rule.applies w = true ∧ rule = .apiKeyCall := by
  rw [classifyBy, Classification.tagPolicy_chainWideApiKey,
    foldl_apply_iff (P := fun c => c.chainWideApiKey = true) Rule.effect_chainWideApiKey]
  simp

theorem classifyBy_basicAuth :
    (classifyBy rules trace).basicAuth = true ↔
      ∃ w ∈ windows trace, ∃ rule ∈ rules, rule.applies w = true ∧ rule = .basicAuth := by
  rw [classifyBy, Classification.tagPolicy_basicAuth,
    foldl_apply_iff (P := fun c => c.basicAuth = true) Rule.effect_basicAuth]
  simp

theorem mem_classifyBy_features (x : String) :
    x ∈ (classifyBy rules trace).features ↔
      (∃ w ∈ windows trace, ∃ rule ∈ rules, rule.applies w = true ∧ rule.tag? = some x) ∨
      ∃ policy, (classifyBy rules trace).sessionPolicy = some policy ∧ x = policy.tag := by
  rw [classifyBy, Classification.tagPolicy_sessionPolicy, Classification.mem_tagPolicy_features,
    foldl_apply_iff (P := fun c => x ∈ c.features) (Rule.mem_effect_features x)]
  simp

/-! ## What one rule finds, window by window -/

section OneRule

variable {β γ : Type} (view : Classification → γ) {found : Window → Option β} {add : γ → β → γ}
  (only : Rule) (hnone : ∀ w, only.applies w = false → found w = none)
  (honly : ∀ w c known, w.event = .call c → only.applies w = true →
    view (only.effect w c known) = (found w).toList.foldl add (view known))
  (hother : ∀ rule w c known, rule ≠ only → view (rule.effect w c known) = view known)

include hnone honly hother

private theorem Rule.apply_view (w : Window) (known : Classification) (rule : Rule) :
    view (Rule.apply w known rule) =
      if rule = only then (found w).toList.foldl add (view known) else view known := by
  cases happlies : rule.applies w with
  | false =>
    rw [Rule.apply_of_not_applies happlies]
    split
    · next hrule => rw [hnone w (hrule ▸ happlies), Option.toList_none, List.foldl_nil]
    · rfl
  | true =>
    obtain ⟨c, hevent, -, heq⟩ := Rule.apply_of_applies happlies
    rw [heq]
    split
    · next hrule =>
      subst hrule
      exact honly w c known hevent happlies
    · next hrule => exact hother rule w c known hrule

variable (hagain : ∀ known x, add (add known x) x = add known x)

include hagain

private theorem foldl_apply_view (w : Window) (rules : List Rule) (known : Classification) :
    view (rules.foldl (Rule.apply w) known) =
      if only ∈ rules then (found w).toList.foldl add (view known) else view known := by
  have htwice : ∀ known, (found w).toList.foldl add ((found w).toList.foldl add known) =
      (found w).toList.foldl add known := by
    intro known
    cases found w with
    | none => rfl
    | some x => exact hagain known x
  induction rules generalizing known with
  | nil => simp
  | cons rule rules ih =>
    rw [List.foldl_cons, ih, Rule.apply_view view only hnone honly hother]
    by_cases hrule : rule = only
    · simp only [hrule, if_true, htwice, ite_self, List.mem_cons_self]
    · simp [hrule, Ne.symm hrule]

/-- What only one rule adds to is put together from what it finds at the windows, whatever the other
rules are and however often the rule is tried. -/
theorem foldl_windows_view (rules : List Rule) (ws : List Window) (known : Classification) :
    view (ws.foldl (fun known w => rules.foldl (Rule.apply w) known) known) =
      if only ∈ rules then (ws.filterMap found).foldl add (view known) else view known := by
  have hwindow := fun w => foldl_apply_view view only hnone honly hother hagain w rules
  induction ws generalizing known with
  | nil => simp
  | cons w ws ih =>
    rw [List.foldl_cons, ih, hwindow]
    by_cases hmem : only ∈ rules
    · cases h : found w <;> simp [hmem, h]
    · simp [hmem]

end OneRule

theorem Window.adjacentConstants_eq (w : Window) : w.adjacentConstants =
    (w.previous.bind Event.constant?).toList ++ (w.next.bind Event.constant?).toList := by
  rw [Window.adjacentConstants, List.filterMap_cons, List.filterMap_cons, List.filterMap_nil]
  cases w.previous.bind Event.constant? <;> cases w.next.bind Event.constant? <;> rfl

/-- The session policy that is offered at a window. -/
def Window.offered? (w : Window) : Option SessionPolicy :=
  if Rule.session.applies w then w.event.call?.map (offeredPolicy w) else none

theorem classifyBy_sessionPolicy : (classifyBy rules trace).sessionPolicy =
    if .session ∈ rules then
      SessionPolicy.offerAll none ((windows trace).filterMap Window.offered?)
    else none := by
  rw [classifyBy, Classification.tagPolicy_sessionPolicy]
  refine foldl_windows_view Classification.sessionPolicy .session ?_ ?_ ?_ ?_ rules
    (windows trace) {}
  · intro w hnot
    simp [Window.offered?, hnot]
  · intro w c known hevent happlies
    simp [Window.offered?, happlies, hevent, Event.call?, Rule.effect, Classification.offerPolicy]
  · intro rule w c known hrule
    cases rule with
    | session => exact absurd rfl hrule
    | filterInsertion =>
      cases h : w.insertedFilter? <;>
        simp [Rule.effect, h, Classification.addFilter_sessionPolicy]
    | _ => simp [Rule.effect, Classification.addTag]
  · intro known policy
    exact SessionPolicy.offerAll_offerAll known [policy]

/-- The session policy of a trace is what its windows offer, one after the other. -/
theorem classify_sessionPolicy : (classify trace).sessionPolicy =
    SessionPolicy.offerAll none ((windows trace).filterMap Window.offered?) := by
  rw [classify, classifyBy_sessionPolicy, if_pos (by decide)]

/-- The filter that is inserted at a window. -/
def Window.inserts? (w : Window) : Option String :=
  if Rule.filterInsertion.applies w then w.insertedFilter? else none

theorem classifyBy_filters : (classifyBy rules trace).filters =
    if .filterInsertion ∈ rules then ((windows trace).filterMap Window.inserts?).eraseDups
    else [] := by
  rw [classifyBy, Classification.tagPolicy_filters, ← Assoc.foldl_append_eq_eraseDups]
  refine foldl_windows_view Classification.filters .filterInsertion ?_ ?_ ?_ ?_ rules
    (windows trace) {}
  · intro w hnot
    simp [Window.inserts?, hnot]
  · intro w c known hevent happlies
    cases h : w.insertedFilter? with
    | none => simp [Window.inserts?, happlies, Rule.effect, h]
    | some f =>
      simp only [Window.inserts?, happlies, Rule.effect, h, Classification.addFilter, if_true,
        Option.toList_some, List.foldl_cons, List.foldl_nil]
      split <;> rfl
  · intro rule w c known hrule
    cases rule with
    | filterInsertion => exact absurd rfl hrule
    | _ => simp [Rule.effect, Classification.addTag, Classification.offerPolicy]
  · intro known f
    by_cases hmem : f ∈ known <;> simp [hmem]

/-- The filters of a trace are those inserted at its windows, each at its first place. -/
theorem classify_filters :
    (classify trace).filters = ((windows trace).filterMap Window.inserts?).eraseDups := by
  rw [classify, classifyBy_filters, if_pos (by decide)]

theorem mem_classifyBy_filters (f : String) :
    f ∈ (classifyBy rules trace).filters ↔
      ∃ w ∈ windows trace, ∃ rule ∈ rules,
        rule.applies w = true ∧ rule = .filterInsertion ∧ w.insertedFilter? = some f := by
  rw [classifyBy_filters]
  by_cases hmem : Rule.filterInsertion ∈ rules
  · simp [hmem, Window.inserts?]
  · simp only [hmem, if_false, List.not_mem_nil, false_iff]
    rintro ⟨w, -, rule, hrule, -, rfl, -⟩
    exact hmem hrule

/-- A window that speaks for an API key by its filter also inserts that filter. -/
theorem inserts_of_apiKeyFilter {w : Window} (h : Rule.apiKeyFilter.applies w = true) :
    ∃ f, w.insertedFilter? = some f ∧ Rule.filterInsertion.applies w = true ∧
      Text.contains (Naming.simpleName f) "ApiKeyAuthFilter" = true := by
  obtain ⟨c, hevent, happlies, -⟩ := Rule.apply_of_applies h
  simp only [Rule.appliesTo, Bool.and_eq_true, Option.any_eq_true] at happlies
  obtain ⟨hinsertion, f, hf, hname⟩ := happlies
  refine ⟨f, hf, ?_, hname⟩
  simp [Rule.applies, hevent, Event.call?, Rule.appliesTo, hinsertion, hf]

end EndpointAudit.Chain
