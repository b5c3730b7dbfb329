import EndpointAudit.Proofs.Endpoint.PolicyRank
import EndpointAudit.Scan

/-!
# What one chain does to a record

A filter and a filter chain change a record field by field, and each field has an update rule of
its own: flags are only ever set, the header of a filter replaces every other, the header that a
chain assumes gives way to every other, and a session policy that gives way takes its tag along.
-/

namespace EndpointAudit

namespace Filter.Coverage

/-- One of the filter's patterns covers the path. -/
def Guards (c : Coverage) (path : String) : Prop :=
  ∃ pattern ∈ c.patterns, Route.covers pattern path = true

/-- The filter is of the given family and guards the path. -/
def Demands (c : Coverage) (family : Family) (path : String) : Prop :=
  familyOf c.filterType = family ∧ c.Guards path

/-- The header that the filter reads, or the given one if it reveals none. -/
def headerOr (c : Coverage) (standard : String) : String :=
  (c.header.filter (· ≠ "")).getD standard

/-- What a filter of a family says about an endpoint that it guards. -/
def demandTag (c : Coverage) (path : String) : Family → String
  | .apiKey => "API Key Authentication required for " ++ c.labelFor path
  | .jwt => "JWT Authentication required for " ++ c.labelFor path
  | .basic => "Basic Authentication required for " ++ c.labelFor path
  | .custom => c.name ++ " applies to " ++ c.labelFor path

/-- The tags that the filter leaves on an endpoint at the path. -/
inductive Leaves (c : Coverage) (path : String) : String → Prop
  | unresolved (hf : familyOf c.filterType = .apiKey) (hp : c.patterns = ∅) :
      Leaves c path "API Key Authentication potentially required (check implementation)"
  | guarding (hg : c.Guards path) : Leaves c path (c.demandTag path (familyOf c.filterType))

theorem appliesTo_iff (c : Coverage) (path : String) :
    c.appliesTo path = true ↔ c.Guards path := by
  simp [appliesTo, Guards, TagSet.mem_def]

instance (c : Coverage) (path : String) : Decidable (c.Guards path) :=
  decidable_of_iff _ (c.appliesTo_iff path)

instance (c : Coverage) (family : Family) (path : String) : Decidable (c.Demands family path) :=
  inferInstanceAs (Decidable (_ ∧ _))

theorem isEmpty_patterns_iff (c : Coverage) : c.patterns.isEmpty = true ↔ c.patterns = ∅ := by
  constructor
  · intro h
    ext x
    rw [TagSet.mem_def, List.isEmpty_iff.mp h]
    simp
  · intro h
    rw [h]
    rfl

theorem not_guards_of_patterns_eq {c : Coverage} (h : c.patterns = ∅) (path : String) :
    ¬ c.Guards path := by
  rintro ⟨pattern, hmem, -⟩
  simp [h] at hmem

theorem leaves_iff_of_guards {c : Coverage} {path : String} (hg : c.Guards path) (x : String) :
    c.Leaves path x ↔ x = c.demandTag path (familyOf c.filterType) := by
  constructor
  · intro h
    cases h with
    | unresolved _ hp => exact absurd hg (not_guards_of_patterns_eq hp path)
    | guarding _ => rfl
  · intro h
    rw [h]
    exact .guarding hg

theorem leaves_iff_of_not_guards {c : Coverage} {path : String} (hg : ¬ c.Guards path)
    (x : String) :
    c.Leaves path x ↔
      familyOf c.filterType = .apiKey ∧ c.patterns = ∅ ∧ x = apiKeyUnresolvedTag := by
  constructor
  · intro h
    cases h with
    | unresolved hf hp => exact ⟨hf, hp, rfl⟩
    | guarding hguards => exact absurd hguards hg
  · rintro ⟨hf, hp, rfl⟩
    exact .unresolved hf hp

end Filter.Coverage

namespace EndpointRecord

open EndpointAudit.Filter

/-- What no analysis changes: where the endpoint is, who may call it and where it is declared. -/
def identity (r : EndpointRecord) :
    String × HttpVerb × String × Option String × Option String :=
  (r.path, r.verb, r.authExpression, r.declaringType, r.methodName)

theorem path_eq_of_identity {r s : EndpointRecord} (h : s.identity = r.identity) :
    s.path = r.path :=
  congrArg Prod.fst h

/-! ## Filters -/

/-- Everything that applying a filter to a record can lead to. -/
inductive FilterStep (settings : Settings) (c : Coverage) (r : EndpointRecord) :
    EndpointRecord × Bool → Prop
  | unresolved (hf : familyOf c.filterType = .apiKey) (hp : c.patterns = ∅) :
      FilterStep settings c r (r.addFeature apiKeyUnresolvedTag, false)
  | idle (hf : familyOf c.filterType = .apiKey → c.patterns ≠ ∅) (hg : ¬ c.Guards r.path) :
      FilterStep settings c r (r, false)
  | apiKey (hf : familyOf c.filterType = .apiKey) (hg : c.Guards r.path) :
      FilterStep settings c r
        ({ r with apiKeyRequired := true
                  apiKeyHeader := some (c.headerOr settings.apiKeyHeader) }.addFeature
          (c.demandTag r.path .apiKey), true)
  | basic (hf : familyOf c.filterType = .basic) (hg : c.Guards r.path) :
      FilterStep settings c r
        ({ r with basicAuthRequired := true }.addFeature (c.demandTag r.path .basic), true)
  | tagOnly (hk : familyOf c.filterType ≠ .apiKey) (hb : familyOf c.filterType ≠ .basic)
      (hg : c.Guards r.path) :
      FilterStep settings c r
        (r.addFeature (c.demandTag r.path (familyOf c.filterType)), true)

private theorem header_eq_headerOr (c : Coverage) (standard : String) :
    (match c.header with
      | some header => if header = "" then standard else header
      | none => standard) = c.headerOr standard := by
  unfold Coverage.headerOr
  cases c.header with
  | none => rfl
  | some header => by_cases h : header = "" <;> simp [h, Option.filter]

theorem applyFilter_step (settings : Settings) (c : Coverage) (r : EndpointRecord) :
    FilterStep settings c r (r.applyFilter settings c) := by
  unfold applyFilter
  by_cases hp : c.patterns.isEmpty = true
  · have hempty := c.isEmpty_patterns_iff.mp hp
    have hg := Coverage.not_guards_of_patterns_eq hempty r.path
    rw [if_pos hp]
    cases hf : familyOf c.filterType with
    | apiKey => exact .unresolved hf hempty
    | jwt => exact .idle (by simp [hf]) hg
    | basic => exact .idle (by simp [hf]) hg
    | custom => exact .idle (by simp [hf]) hg
  · rw [if_neg hp]
    by_cases ha : c.appliesTo r.path = true
    · have hg := (c.appliesTo_iff r.path).mp ha
      rw [if_pos ha]
      unfold addFilter
      cases hf : familyOf c.filterType with
      | apiKey =>
        have hstep := @FilterStep.apiKey settings c r hf hg
        rw [← header_eq_headerOr] at hstep
        exact hstep
      | jwt =>
        have hstep := @FilterStep.tagOnly settings c r (by simp [hf]) (by simp [hf]) hg
        rw [hf] at hstep
        exact hstep
      | basic => exact .basic hf hg
      | custom =>
        have hstep := @FilterStep.tagOnly settings c r (by simp [hf]) (by simp [hf]) hg
        rw [hf] at hstep
        exact hstep
    · rw [if_neg ha]
      exact .idle (fun _ h => hp (c.isEmpty_patterns_iff.mpr h))
        (fun hg => ha ((c.appliesTo_iff r.path).mpr hg))

theorem FilterStep.identity {settings : Settings} {c : Coverage} {r : EndpointRecord}
    {s : EndpointRecord × Bool} (h : FilterStep settings c r s) : s.1.identity = r.identity := by
  cases h <;> rfl

theorem FilterStep.sessionPolicy {settings : Settings} {c : Coverage} {r : EndpointRecord}
    {s : EndpointRecord × Bool} (h : FilterStep settings c r s) :
    s.1.sessionPolicy = r.sessionPolicy := by
  cases h <;> rfl

theorem FilterStep.apiKeyRequired {settings : Settings} {c : Coverage} {r : EndpointRecord}
    {s : EndpointRecord × Bool} (h : FilterStep settings c r s) :
    s.1.apiKeyRequired = true ↔ r.apiKeyRequired = true ∨ c.Demands .apiKey r.path := by
  cases h <;> simp_all [addFeature, Coverage.Demands, Coverage.not_guards_of_patterns_eq]

theorem FilterStep.basicAuthRequired {settings : Settings} {c : Coverage} {r : EndpointRecord}
    {s : EndpointRecord × Bool} (h : FilterStep settings c r s) :
    s.1.basicAuthRequired = true ↔ r.basicAuthRequired = true ∨ c.Demands .basic r.path := by
  cases h <;> simp_all [addFeature, Coverage.Demands, Coverage.not_guards_of_patterns_eq]

/-- The header that a filter asks for at a path. -/
def demandedHeader? (settings : Settings) (path : String) (c : Coverage) : Option String :=
  if c.Demands .apiKey path then some (c.headerOr settings.apiKeyHeader) else none

theorem FilterStep.apiKeyHeader {settings : Settings} {c : Coverage} {r : EndpointRecord}
    {s : EndpointRecord × Bool} (h : FilterStep settings c r s) :
    s.1.apiKeyHeader = (demandedHeader? settings r.path c).or r.apiKeyHeader := by
  cases h <;>
    simp_all [demandedHeader?, addFeature, Coverage.Demands, Coverage.not_guards_of_patterns_eq]

private theorem FilterStep.mem_features {settings : Settings} {c : Coverage} {r : EndpointRecord}
    {s : EndpointRecord × Bool} (h : FilterStep settings c r s) (x : String) :
    x ∈ s.1.features ↔ x ∈ r.features ∨ c.Leaves r.path x := by
  cases h with
  | unresolved hf hp =>
    have hg := Coverage.not_guards_of_patterns_eq hp r.path
    simp [addFeature, Coverage.leaves_iff_of_not_guards hg, hf, hp, or_comm]
  | idle hf hg =>
    simp only [Coverage.leaves_iff_of_not_guards hg]
    refine ⟨.inl, ?_⟩
    rintro (hx | ⟨hk, hp, -⟩)
    · exact hx
    · exact absurd hp (hf hk)
  | apiKey hf hg => simp [addFeature, Coverage.leaves_iff_of_guards hg, hf, or_comm]
  | basic hf hg => simp [addFeature, Coverage.leaves_iff_of_guards hg, hf, or_comm]
  | tagOnly hk hb hg => simp [addFeature, Coverage.leaves_iff_of_guards hg, or_comm]

/-! ## All filters of a chain -/

private theorem foldl_applyFilter (settings : Settings) (cs : List Coverage)
    (r : EndpointRecord) (n : Nat) :
    cs.foldl (fun (r, n) c =>
      let (r, applied) := r.applyFilter settings c
      (r, if applied then n + 1 else n)) (r, n) =
    ((r.applyFilters settings cs).1, n + (r.applyFilters settings cs).2) := by
  induction cs generalizing r n with
  | nil => rfl
  | cons c cs ih =>
    have hrest := ih (r.applyFilter settings c).1
    have hall : r.applyFilters settings (c :: cs) = _ :=
      hrest (if (r.applyFilter settings c).2 then 0 + 1 else 0)
    refine (hrest (if (r.applyFilter settings c).2 then n + 1 else n)).trans ?_
    rw [hall]
    cases (r.applyFilter settings c).2 <;> simp [Nat.add_assoc]

@[simp] theorem applyFilters_nil (settings : Settings) (r : EndpointRecord) :
    r.applyFilters settings [] = (r, 0) := rfl

/-- The filters of a chain are applied one after the other, and their matches are added up. -/
theorem applyFilters_cons_eq (settings : Settings) (c : Coverage) (cs : List Coverage)
    (r : EndpointRecord) :
    r.applyFilters settings (c :: cs) =
      (((r.applyFilter settings c).1.applyFilters settings cs).1,
        (if (r.applyFilter settings c).2 then 1 else 0) +
          ((r.applyFilter settings c).1.applyFilters settings cs).2) :=
  foldl_applyFilter settings cs (r.applyFilter settings c).1 _

theorem applyFilters_cons (settings : Settings) (c : Coverage) (cs : List Coverage)
    (r : EndpointRecord) :
    (r.applyFilters settings (c :: cs)).1 =
      ((r.applyFilter settings c).1.applyFilters settings cs).1 := by
  rw [applyFilters_cons_eq]

theorem applyFilters_identity (settings : Settings) (cs : List Coverage) (r : EndpointRecord) :
    (r.applyFilters settings cs).1.identity = r.identity := by
  induction cs generalizing r with
  | nil => rfl
  | cons c cs ih =>
    rw [applyFilters_cons, ih]
    exact (applyFilter_step settings c r).identity

theorem applyFilters_sessionPolicy (settings : Settings) (cs : List Coverage)
    (r : EndpointRecord) : (r.applyFilters settings cs).1.sessionPolicy = r.sessionPolicy := by
  induction cs generalizing r with
  | nil => rfl
  | cons c cs ih =>
    rw [applyFilters_cons, ih]
    exact (applyFilter_step settings c r).sessionPolicy

theorem applyFilters_apiKeyRequired (settings : Settings) (cs : List Coverage)
    (r : EndpointRecord) :
    (r.applyFilters settings cs).1.apiKeyRequired = true ↔
      r.apiKeyRequired = true ∨ ∃ c ∈ cs, c.Demands .apiKey r.path := by
  induction cs generalizing r with
  | nil => simp
  | cons c cs ih =>
    have hstep := applyFilter_step settings c r
    rw [applyFilters_cons, ih, hstep.apiKeyRequired, path_eq_of_identity hstep.identity]
    simp [or_assoc]

theorem applyFilters_basicAuthRequired (settings : Settings) (cs : List Coverage)
    (r : EndpointRecord) :
    (r.applyFilters settings cs).1.basicAuthRequired = true ↔
      r.basicAuthRequired = true ∨ ∃ c ∈ cs, c.Demands .basic r.path := by
  induction cs generalizing r with
  | nil => simp
  | cons c cs ih =>
    have hstep := applyFilter_step settings c r
    rw [applyFilters_cons, ih, hstep.basicAuthRequired, path_eq_of_identity hstep.identity]
    simp [or_assoc]

/-- The header that a list of filters settles at a path: the last one that is asked for. -/
def lastHeader? (settings : Settings) (path : String) (cs : List Coverage) : Option String :=
  (cs.filterMap (demandedHeader? settings path)).getLast?

theorem lastHeader?_append (settings : Settings) (path : String) (cs ds : List Coverage) :
    lastHeader? settings path (cs ++ ds) =
      (lastHeader? settings path ds).or (lastHeader? settings path cs) := by
  simp [lastHeader?, List.getLast?_append]

theorem applyFilters_apiKeyHeader (settings : Settings) (cs : List Coverage)
    (r : EndpointRecord) :
    (r.applyFilters settings cs).1.apiKeyHeader =
      (lastHeader? settings r.path cs).or r.apiKeyHeader := by
  induction cs generalizing r with
  | nil => rfl
  | cons c cs ih =>
    have hstep := applyFilter_step settings c r
    have hone : lastHeader? settings r.path [c] = demandedHeader? settings r.path c := by
      cases h : demandedHeader? settings r.path c <;> simp [lastHeader?, h]
    have happend := lastHeader?_append settings r.path [c] cs
    rw [List.singleton_append, hone] at happend
    rw [applyFilters_cons, ih, hstep.apiKeyHeader, path_eq_of_identity hstep.identity, happend,
      Option.or_assoc]

theorem mem_applyFilters_features (settings : Settings) (cs : List Coverage)
    (r : EndpointRecord) (x : String) :
    x ∈ (r.applyFilters settings cs).1.features ↔
      x ∈ r.features ∨ ∃ c ∈ cs, c.Leaves r.path x := by
  induction cs generalizing r with
  | nil => simp
  | cons c cs ih =>
    have hstep := applyFilter_step settings c r
    rw [applyFilters_cons, ih, hstep.mem_features, path_eq_of_identity hstep.identity]
    simp [or_assoc]

/-! ## The chain itself -/

/-- The header that a chain assumes, if it asks for an API key on its own. -/
def assumedHeader? (settings : Settings) (c : Chain.Classification) : Option String :=
  if c.chainWideApiKey then some settings.apiKeyHeader else none

/-- What is known of the session policy behind a chain. -/
def policyBehind (c : Chain.Classification) (known : Option SessionPolicy) :
    Option SessionPolicy :=
  SessionPolicy.offerAll known c.sessionPolicy.toList

/-- The features that outlive a change from one session policy to another. -/
def keptFeatures (before after : Option SessionPolicy) (features : TagSet) : TagSet :=
  if after = before then features else features.filter (!isSessionTag ·)

private theorem mergeRequirements_eq (settings : Settings) (c : Chain.Classification)
    (r : EndpointRecord) :
    r.mergeRequirements settings c =
      { r with
        basicAuthRequired := r.basicAuthRequired || c.basicAuth
        apiKeyRequired := r.apiKeyRequired || c.chainWideApiKey
        apiKeyHeader := r.apiKeyHeader.or (assumedHeader? settings c)
        features := r.features ∪ chainFeatures c } := by
  unfold mergeRequirements assumedHeader?
  cases c.chainWideApiKey <;> simp

/-- A chain adds what it requires, settles the session policy and tags it. -/
theorem mergeChain_eq (settings : Settings) (c : Chain.Classification) (r : EndpointRecord) :
    r.mergeChain settings c =
      { r with
        basicAuthRequired := r.basicAuthRequired || c.basicAuth
        apiKeyRequired := r.apiKeyRequired || c.chainWideApiKey
        apiKeyHeader := r.apiKeyHeader.or (assumedHeader? settings c)
        sessionPolicy := policyBehind c r.sessionPolicy
        features := keptFeatures r.sessionPolicy (policyBehind c r.sessionPolicy)
          (r.features ∪ chainFeatures c) }.tagPolicy := by
  simp only [mergeChain, mergeRequirements_eq]
  cases hp : c.sessionPolicy with
  | none => simp [policyBehind, hp, keptFeatures]
  | some policy =>
    have hbehind : policyBehind c r.sessionPolicy = policy.offer r.sessionPolicy := by
      simp [policyBehind, hp]
    rw [hbehind]
    cases he : policy.exceeds r.sessionPolicy with
    | false =>
      rw [SessionPolicy.offer_of_not_exceeds he]
      simp [mergePolicy, he, keptFeatures]
    | true =>
      have hne : policy.offer r.sessionPolicy ≠ r.sessionPolicy := by
        rw [Ne, SessionPolicy.offer_eq_self_iff, he]
        decide
      rw [keptFeatures, if_neg hne, SessionPolicy.offer_of_exceeds he]
      simp [mergePolicy, he]

theorem tagPolicy_eq (r : EndpointRecord) :
    r.tagPolicy = { r with features := r.tagPolicy.features } := by
  obtain ⟨_, _, _, _, _, _, policy, _, _, _⟩ := r
  cases policy <;> rfl

theorem mem_tagPolicy_features (r : EndpointRecord) (x : String) :
    x ∈ r.tagPolicy.features ↔
      x ∈ r.features ∨ ∃ policy, r.sessionPolicy = some policy ∧ x = policy.tag := by
  unfold tagPolicy
  cases r.sessionPolicy <;> simp [addFeature, or_comm]

theorem mergeChain_identity (settings : Settings) (c : Chain.Classification)
    (r : EndpointRecord) : (r.mergeChain settings c).identity = r.identity := by
  rw [mergeChain_eq, tagPolicy_eq]
  rfl

theorem mergeChain_sessionPolicy (settings : Settings) (c : Chain.Classification)
    (r : EndpointRecord) :
    (r.mergeChain settings c).sessionPolicy = policyBehind c r.sessionPolicy := by
  rw [mergeChain_eq, tagPolicy_eq]

theorem mergeChain_apiKeyRequired (settings : Settings) (c : Chain.Classification)
    (r : EndpointRecord) :
    (r.mergeChain settings c).apiKeyRequired = true ↔
      r.apiKeyRequired = true ∨ c.chainWideApiKey = true := by
  rw [mergeChain_eq, tagPolicy_eq]
  simp

theorem mergeChain_basicAuthRequired (settings : Settings) (c : Chain.Classification)
    (r : EndpointRecord) :
    (r.mergeChain settings c).basicAuthRequired = true ↔
      r.basicAuthRequired = true ∨ c.basicAuth = true := by
  rw [mergeChain_eq, tagPolicy_eq]
  simp

theorem mergeChain_apiKeyHeader (settings : Settings) (c : Chain.Classification)
    (r : EndpointRecord) :
    (r.mergeChain settings c).apiKeyHeader = r.apiKeyHeader.or (assumedHeader? settings c) := by
  rw [mergeChain_eq, tagPolicy_eq]

theorem mem_chainFeatures (c : Chain.Classification) (x : String) :
    x ∈ chainFeatures c ↔ x ∈ c.features ∧ isSessionTag x = false ∧
      (c.chainWideApiKey = true ∨ x ≠ "API Key Authentication") := by
  simp [chainFeatures, Chain.apiKeyTag]

theorem mem_mergeChain_features (settings : Settings) (c : Chain.Classification)
    (r : EndpointRecord) (x : String) :
    x ∈ (r.mergeChain settings c).features ↔
      (x ∈ r.features ∧
        (isSessionTag x = true → policyBehind c r.sessionPolicy = r.sessionPolicy)) ∨
      x ∈ chainFeatures c ∨
      ∃ policy, policyBehind c r.sessionPolicy = some policy ∧ x = policy.tag := by
  rw [mergeChain_eq, mem_tagPolicy_features]
  by_cases hp : policyBehind c r.sessionPolicy = r.sessionPolicy
  · simp [keptFeatures, hp, or_assoc]
  · have hchain : x ∈ chainFeatures c → isSessionTag x = false :=
      fun h => ((mem_chainFeatures c x).mp h).2.1
    simp only [keptFeatures, hp, if_false, TagSet.mem_filter, TagSet.mem_union]
    cases hx : isSessionTag x <;> simp_all [or_assoc]

end EndpointRecord

end EndpointAudit
