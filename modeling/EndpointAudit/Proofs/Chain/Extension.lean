import EndpointAudit.Proofs.Chain.Classification

/-!
# Longer traces

A trace inside a longer one is seen through windows that show at least as much: at the seams an
event may get a neighbour, and a filter may have been made before. No rule is put off by that, so
the classification of the longer trace says at least as much. Behind a trace only the last window
changes, and only in what follows it, which leaves the order of the inserted filters and a session
policy that has a name.
-/

namespace EndpointAudit.Chain

/-! ## Windows -/

/-- A window on the same event that shows at least as much. -/
structure Window.Extends (w w' : Window) : Prop where
  event : w'.event = w.event
  previous : ∀ e, w.previous = some e → w'.previous = some e
  next : ∀ e, w.next = some e → w'.next = some e
  produced : ∀ f, w.produced = some f → w'.produced = some f

private theorem producedAfter_mono (event : Event) {produced produced' : Option String}
    (h : ∀ f, produced = some f → produced' = some f) (f : String)
    (hf : producedAfter event produced = some f) : producedAfter event produced' = some f := by
  cases event with
  | call c =>
    rw [producedAfter, Option.or_eq_some_iff] at hf ⊢
    rcases hf with hf | ⟨hnone, hf⟩
    · exact .inl hf
    · exact .inr ⟨hnone, h f hf⟩
  | constant | branch => exact h f hf

private theorem windowsAfter_append (previous : Option Event) (produced : Option String)
    (before trace : List Event) : ∃ ws previous' produced',
      windowsAfter previous produced (before ++ trace) =
        ws ++ windowsAfter previous' produced' trace := by
  induction before generalizing previous produced with
  | nil => exact ⟨[], previous, produced, rfl⟩
  | cons e before ih =>
    obtain ⟨ws, previous', produced', heq⟩ := ih (some e) (producedAfter e produced)
    exact ⟨_ :: ws, previous', produced', congrArg (_ :: ·) heq⟩

private theorem exists_extends_windowsAfter {previous : Option Event} {produced : Option String}
    {trace : List Event} {w : Window} (hw : w ∈ windowsAfter previous produced trace)
    (previous' : Option Event) (produced' : Option String) (after : List Event)
    (hprevious : ∀ e, previous = some e → previous' = some e)
    (hproduced : ∀ f, produced = some f → produced' = some f) :
    ∃ w' ∈ windowsAfter previous' produced' (trace ++ after), w.Extends w' := by
  induction trace generalizing previous previous' produced produced' with
  | nil => simp [windowsAfter] at hw
  | cons e trace ih =>
    rcases List.mem_cons.mp hw with rfl | hw
    · refine ⟨_, List.mem_cons_self, rfl, hprevious, ?_, hproduced⟩
      intro next hnext
      cases trace with
      | nil => simp at hnext
      | cons e' trace => exact hnext
    · obtain ⟨w', hw', hext⟩ := ih hw (some e) (producedAfter e produced') (fun _ h => h)
        (producedAfter_mono e hproduced)
      exact ⟨w', List.mem_cons_of_mem _ hw', hext⟩

/-- Every window of a trace is extended by one of any longer trace. -/
theorem exists_extends_windows {trace : List Event} (before after : List Event) {w : Window}
    (hw : w ∈ windows trace) : ∃ w' ∈ windows (before ++ trace ++ after), w.Extends w' := by
  obtain ⟨ws, previous, produced, heq⟩ := windowsAfter_append none none before (trace ++ after)
  obtain ⟨w', hw', hext⟩ :=
    exists_extends_windowsAfter hw previous produced after (by simp) (by simp)
  refine ⟨w', ?_, hext⟩
  rw [windows, List.append_assoc, heq]
  exact List.mem_append_right ws hw'

private theorem exists_windowsAfter_concat (previous : Option Event) (produced : Option String)
    (trace : List Event) (e : Event) : ∃ ws previous' produced', ∀ after,
      windowsAfter previous produced (trace ++ e :: after) =
        ws ++ { event := e, previous := previous', next := after.head?, produced := produced' } ::
          windowsAfter (some e) (producedAfter e produced') after := by
  induction trace generalizing previous produced with
  | nil => exact ⟨[], previous, produced, fun _ => rfl⟩
  | cons e' trace ih =>
    obtain ⟨ws, previous', produced', heq⟩ := ih (some e') (producedAfter e' produced)
    refine ⟨{ event := e', previous, next := (trace ++ [e]).head?, produced } :: ws, previous',
      produced', fun after => ?_⟩
    rw [List.cons_append, windowsAfter, heq after]
    cases trace <;> rfl

/-- What follows a trace is seen by no window of the trace but the last, and there as what is
next. -/
theorem exists_windows_append {trace : List Event} (hne : trace ≠ []) (after : List Event) :
    ∃ ws w more, w.next = none ∧ windows trace = ws ++ [w] ∧
      windows (trace ++ after) = ws ++ { w with next := after.head? } :: more := by
  obtain ⟨trace, e, rfl⟩ := (List.eq_nil_or_concat trace).resolve_left hne
  obtain ⟨ws, previous, produced, heq⟩ := exists_windowsAfter_concat none none trace e
  refine ⟨ws, { event := e, previous, next := none, produced },
    windowsAfter (some e) (producedAfter e produced) after, rfl, ?_, ?_⟩
  · rw [windows, List.concat_eq_append, heq []]
    rfl
  · rw [windows, List.concat_eq_append, List.append_assoc, List.singleton_append, heq after]

/-! ## Rules -/

theorem Window.Extends.insertedFilter? {w w' : Window} (h : w.Extends w') {f : String}
    (hf : w.insertedFilter? = some f) : w'.insertedFilter? = some f := by
  unfold Window.insertedFilter? at hf ⊢
  rw [h.event]
  cases hcall : w.event.call? with
  | none => simp [hcall] at hf
  | some c =>
    rw [hcall] at hf
    simp only [Option.bind_eq_bind, Option.bind_some] at hf ⊢
    cases hparams : c.parameterTypes with
    | nil =>
      rw [hparams] at hf
      exact h.produced f hf
    | cons type _ =>
      rw [hparams] at hf
      dsimp only at hf ⊢
      split at hf
      · next hconcrete => rwa [if_pos hconcrete]
      · next hconcrete =>
        rw [if_neg hconcrete]
        exact h.produced f hf

private theorem Rule.appliesTo_of_extends {rule : Rule} {w w' : Window} (h : w.Extends w')
    {c : Call} (happlies : rule.appliesTo w c = true) : rule.appliesTo w' c = true := by
  cases rule with
  | apiKeyFilter =>
    simp only [Rule.appliesTo, Bool.and_eq_true, Option.any_eq_true] at happlies ⊢
    obtain ⟨hinsertion, f, hf, hname⟩ := happlies
    exact ⟨hinsertion, f, h.insertedFilter? hf, hname⟩
  | filterInsertion =>
    simp only [Rule.appliesTo, Bool.and_eq_true, Option.isSome_iff_exists] at happlies ⊢
    obtain ⟨hinsertion, f, hf⟩ := happlies
    exact ⟨hinsertion, f, h.insertedFilter? hf⟩
  | csrfDisabled =>
    simp only [Rule.appliesTo, Rule.disablesCsrf, Bool.or_eq_true, Bool.and_eq_true,
      Option.any_eq_true, Option.bind_eq_some_iff] at happlies ⊢
    rcases happlies with hown | ⟨hbuilder, p, ⟨e, he, hp⟩, hname⟩
    · exact .inl hown
    · exact .inr ⟨hbuilder, p, ⟨e, h.previous e he, hp⟩, hname⟩
  | basicAuth | apiKeyCall | session | jwt | oauth2 => exact happlies

theorem Rule.applies_of_extends {rule : Rule} {w w' : Window} (h : w.Extends w')
    (happlies : rule.applies w = true) : rule.applies w' = true := by
  unfold Rule.applies at happlies ⊢
  rw [Option.any_eq_true] at happlies ⊢
  obtain ⟨c, hc, happlies⟩ := happlies
  exact ⟨c, by rw [h.event, hc], Rule.appliesTo_of_extends h happlies⟩

/-! ## What a longer trace offers -/

private theorem rank_of_sessionMarker? {text : String} {policy : SessionPolicy}
    (h : sessionMarker? text = some policy) : policy.rank = 2 := by
  have hmarkers : ∀ p ∈ markers, p.rank = 2 := by decide
  exact hmarkers policy (List.mem_of_find?_eq_some h)

private theorem Window.Extends.adjacentConstants_subset {w w' : Window} (h : w.Extends w') :
    w.adjacentConstants ⊆ w'.adjacentConstants := by
  intro text htext
  simp only [Window.adjacentConstants, List.mem_filterMap, List.mem_cons, List.not_mem_nil,
    or_false, exists_eq_or_imp, exists_eq_left, Option.bind_eq_some_iff] at htext ⊢
  rcases htext with ⟨e, he, htext⟩ | ⟨e, he, htext⟩
  · exact .inl ⟨e, h.previous e he, htext⟩
  · exact .inr ⟨e, h.next e he, htext⟩

private theorem Window.Extends.rank_offeredPolicy_le {w w' : Window} (h : w.Extends w') (c : Call) :
    (offeredPolicy w c).rank ≤ (offeredPolicy w' c).rank := by
  unfold offeredPolicy
  cases hmarker' : w'.adjacentConstants.findSome? sessionMarker? with
  | some policy' =>
    obtain ⟨text, -, htext⟩ := List.exists_of_findSome?_eq_some hmarker'
    rw [Option.getD_some, rank_of_sessionMarker? htext]
    exact SessionPolicy.rank_le_two _
  | none =>
    have hmarker : w.adjacentConstants.findSome? sessionMarker? = none := by
      rw [List.findSome?_eq_none_iff] at hmarker' ⊢
      exact fun text htext => hmarker' text (h.adjacentConstants_subset htext)
    exact Nat.le_of_eq (by rw [hmarker])

theorem Window.Extends.offered? {w w' : Window} (h : w.Extends w') {policy : SessionPolicy}
    (hoffered : w.offered? = some policy) :
    ∃ policy', w'.offered? = some policy' ∧ policy.rank ≤ policy'.rank := by
  unfold Window.offered? at hoffered ⊢
  split at hoffered
  · next happlies =>
    rw [if_pos (Rule.applies_of_extends h happlies), h.event]
    obtain ⟨c, hc, rfl⟩ := Option.map_eq_some_iff.mp hoffered
    exact ⟨offeredPolicy w' c, by rw [hc, Option.map_some], h.rank_offeredPolicy_le c⟩
  · cases hoffered

private theorem sessionMarker?_of_rank_eq_two {w : Window} {c : Call}
    (h : (offeredPolicy w c).rank = 2) :
    w.adjacentConstants.findSome? sessionMarker? = some (offeredPolicy w c) := by
  unfold offeredPolicy at h ⊢
  cases hmarker : w.adjacentConstants.findSome? sessionMarker? with
  | some policy => rfl
  | none =>
    rw [hmarker, Option.getD_none] at h
    split at h <;> cases h

/-- A policy with a name that is offered where nothing follows was named by what comes before, and
is named whatever follows. -/
theorem Window.offered?_of_next_eq_none {w : Window} (hnext : w.next = none)
    {policy : SessionPolicy} (hrank : policy.rank = 2) (hoffered : w.offered? = some policy)
    (next : Option Event) : ({ w with next } : Window).offered? = some policy := by
  unfold Window.offered? at hoffered ⊢
  split at hoffered
  · next happlies =>
    obtain ⟨c, hc, rfl⟩ := Option.map_eq_some_iff.mp hoffered
    have hmarker := sessionMarker?_of_rank_eq_two hrank
    rw [Window.adjacentConstants_eq, hnext, Option.bind_none, Option.toList_none,
      List.append_nil] at hmarker
    have happlies' : Rule.session.applies { w with next } = true := happlies
    rw [if_pos happlies', hc, Option.map_some]
    congr 1
    conv_lhs => rw [offeredPolicy, Window.adjacentConstants_eq, List.findSome?_append, hmarker]
    rfl
  · cases hoffered

private theorem classify_sessionPolicy_append {trace : List Event} {policy : SessionPolicy}
    (hrank : policy.rank = 2) (h : (classify trace).sessionPolicy = some policy)
    (after : List Event) : (classify (trace ++ after)).sessionPolicy = some policy := by
  have hne : trace ≠ [] := by
    rintro rfl
    cases h
  obtain ⟨ws, w, more, hnext, hshort, hlong⟩ := exists_windows_append hne after
  rw [classify_sessionPolicy, hshort, List.filterMap_append, SessionPolicy.offerAll_append] at h
  rw [classify_sessionPolicy, hlong, List.filterMap_append, SessionPolicy.offerAll_append]
  generalize SessionPolicy.offerAll none (ws.filterMap Window.offered?) = known at h ⊢
  by_cases hknown : known = some policy
  · exact hknown ▸ SessionPolicy.offerAll_of_rank_eq_two hrank _
  -- The policy comes from the last window, which offers it whatever follows.
  have hlast : w.offered? = some policy ∧ policy.offer known = some policy := by
    cases hoffered : w.offered? with
    | none => exact absurd (by simpa [hoffered] using h) hknown
    | some p =>
      have hoffer : p.offer known = some policy := by simpa [hoffered] using h
      rcases SessionPolicy.offer_eq_or p known with hp | hp
      · have heq : p = policy := by simpa [hp] using hoffer
        exact ⟨by rw [heq], heq ▸ hoffer⟩
      · exact absurd (hp ▸ hoffer) hknown
  have hlonger := Window.offered?_of_next_eq_none hnext hrank hlast.1 after.head?
  rw [List.filterMap_cons_some hlonger, SessionPolicy.offerAll_cons, hlast.2]
  exact SessionPolicy.offerAll_of_rank_eq_two hrank _

private theorem classify_filters_prefix (trace after : List Event) :
    (classify trace).filters <+: (classify (trace ++ after)).filters := by
  by_cases hne : trace = []
  · subst hne
    exact List.nil_prefix
  obtain ⟨ws, w, more, -, hshort, hlong⟩ := exists_windows_append hne after
  -- What follows the last event plays no part in the filter that it inserts.
  have hlast : Window.inserts? { w with next := after.head? } = w.inserts? := rfl
  have hsplit : (ws ++ { w with next := after.head? } :: more).filterMap Window.inserts? =
      (ws ++ [w]).filterMap Window.inserts? ++ more.filterMap Window.inserts? := by
    rw [List.filterMap_append, List.filterMap_append, List.append_assoc]
    congr 1
    cases h : w.inserts? <;> simp [hlast, h]
  rw [classify_filters, classify_filters, hshort, hlong, hsplit, List.eraseDups_append]
  exact List.prefix_append _ _

/-! ## Classifications of longer traces -/

/-- A classification says no more than another, but for how sessions are treated: there it may name
another policy that is no less specific. -/
structure Classification.Within (c c' : Classification) : Prop where
  basicAuth : c.basicAuth = true → c'.basicAuth = true
  apiKey : c.apiKey = true → c'.apiKey = true
  chainWideApiKey : c.chainWideApiKey = true → c'.chainWideApiKey = true
  features : ∀ x ∈ c.features, (∀ policy : SessionPolicy, x ≠ policy.tag) → x ∈ c'.features
  filters : c.filters ⊆ c'.filters
  sessionPolicy : SessionPolicy.level c.sessionPolicy ≤ SessionPolicy.level c'.sessionPolicy

private theorem within_classify (before trace after : List Event) :
    (classify trace).Within (classify (before ++ trace ++ after)) := by
  -- What a rule says at a window of the trace it also says at the window that extends it.
  have hrule : ∀ Q : Rule → Prop,
      (∃ w ∈ windows trace, ∃ rule ∈ Rule.all, rule.applies w = true ∧ Q rule) →
      ∃ w ∈ windows (before ++ trace ++ after), ∃ rule ∈ Rule.all,
        rule.applies w = true ∧ Q rule := by
    rintro Q ⟨w, hw, rule, hmem, happlies, hQ⟩
    obtain ⟨w', hw', hext⟩ := exists_extends_windows before after hw
    exact ⟨w', hw', rule, hmem, Rule.applies_of_extends hext happlies, hQ⟩
  constructor
  · intro h
    exact (classifyBy_basicAuth _ _).mpr (hrule _ ((classifyBy_basicAuth _ _).mp h))
  · intro h
    exact (classifyBy_apiKey _ _).mpr (hrule _ ((classifyBy_apiKey _ _).mp h))
  · intro h
    exact (classifyBy_chainWideApiKey _ _).mpr (hrule _ ((classifyBy_chainWideApiKey _ _).mp h))
  · intro x hx hpolicy
    rcases (mem_classifyBy_features _ _ x).mp hx with hfound | ⟨policy, -, htag⟩
    · exact (mem_classifyBy_features _ _ x).mpr (.inl (hrule _ hfound))
    · exact absurd htag (hpolicy policy)
  · intro f hf
    obtain ⟨w, hw, rule, hmem, happlies, hinsertion, hinserted⟩ :=
      (mem_classifyBy_filters _ _ f).mp hf
    obtain ⟨w', hw', hext⟩ := exists_extends_windows before after hw
    exact (mem_classifyBy_filters _ _ f).mpr ⟨w', hw', rule, hmem,
      Rule.applies_of_extends hext happlies, hinsertion, hext.insertedFilter? hinserted⟩
  · rw [classify_sessionPolicy, classify_sessionPolicy]
    apply SessionPolicy.level_offerAll_le
    intro policy hpolicy
    obtain ⟨w, hw, hoffered⟩ := List.mem_filterMap.mp hpolicy
    obtain ⟨w', hw', hext⟩ := exists_extends_windows before after hw
    obtain ⟨policy', hoffered', hle⟩ := hext.offered? hoffered
    exact ⟨policy', List.mem_filterMap.mpr ⟨w', hw', hoffered'⟩, hle⟩

/-- **Classification is monotone.** Whatever stands before or behind a trace adds to what is known
of it. What stands behind it also leaves the order of its filters and a session policy with a
name. -/
theorem classify_extended (u t v : List Event) :
    (classify t).Within (classify (u ++ t ++ v)) ∧
    (classify t).filters <+: (classify (t ++ v)).filters ∧
    ∀ policy, policy ≠ .standard ∧ policy ≠ .custom →
      (classify t).sessionPolicy = some policy →
      (classify (t ++ v)).sessionPolicy = some policy := by
  refine ⟨within_classify u t v, classify_filters_prefix t v, ?_⟩
  intro policy hnamed hpolicy
  exact classify_sessionPolicy_append ((SessionPolicy.rank_eq_two_iff policy).mpr hnamed) hpolicy v

/-- A trace that ends in a call whose session policy is named in front of it. -/
def statelessTrace : List Event :=
  [.call ⟨"x.ApiKeyAuthFilter", "<init>", "()V"⟩,
    .call ⟨"HttpSecurity", "addFilter", "(Ljakarta/servlet/Filter;)V"⟩,
    .constant "STATELESS", .call ⟨"HttpSecurity", "sessionManagement", "()V"⟩]

theorem classify_extended_statelessTrace :
    (classify statelessTrace).sessionPolicy = some .stateless ∧
    (classify (statelessTrace ++ [.constant "ALWAYS"])).sessionPolicy = some .stateless ∧
    (classify statelessTrace).filters <+:
      (classify (statelessTrace ++ [.constant "ALWAYS"])).filters := by
  have hpolicy : (classify statelessTrace).sessionPolicy = some .stateless := by decide +kernel
  obtain ⟨-, hfilters, hnamed⟩ := classify_extended [] statelessTrace [.constant "ALWAYS"]
  exact ⟨hpolicy, hnamed .stateless (by decide) hpolicy, hfilters⟩

-- In front of a trace a constant can put another policy in the place of the named one.
example :
    let trace : List Event :=
      [.call ⟨"HttpSecurity", "sessionManagement", "()V"⟩, .constant "STATELESS"]
    (classify trace).sessionPolicy = some .stateless ∧
    (classify (.constant "ALWAYS" :: trace)).sessionPolicy = some .always := by
  decide +kernel

end EndpointAudit.Chain
