import EndpointAudit.Proofs.Endpoint.MergeStep
import Mathlib.Data.List.Forall2

/-!
# What a sequence of chains does to a record

The record that a sequence of analyses leaves behind is described field by field, without the
order in which the record was updated: flags by a demand somewhere in the sequence, the header by
the last filter that asks for one, the session policy as the first of the highest rank, the
features as a union. It follows that going through the sequence a second time changes nothing.
-/

namespace EndpointAudit

namespace EndpointRecord

/-- A record as discovery makes it, before anything is known of the chains in front of it. -/
structure Fresh (r : EndpointRecord) : Prop where
  apiKeyRequired : r.apiKeyRequired = false
  apiKeyHeader : r.apiKeyHeader = none
  basicAuthRequired : r.basicAuthRequired = false
  sessionPolicy : r.sessionPolicy = none
  features : r.features = ∅

theorem eq_of_fields {r s : EndpointRecord} (hid : r.identity = s.identity)
    (hkey : r.apiKeyRequired = true ↔ s.apiKeyRequired = true)
    (hheader : r.apiKeyHeader = s.apiKeyHeader)
    (hbasic : r.basicAuthRequired = true ↔ s.basicAuthRequired = true)
    (hpolicy : r.sessionPolicy = s.sessionPolicy)
    (hfeatures : ∀ x, x ∈ r.features ↔ x ∈ s.features) : r = s := by
  have hf : r.features = s.features := TagSet.ext hfeatures
  have hk := Bool.eq_iff_iff.mpr hkey
  have hb := Bool.eq_iff_iff.mpr hbasic
  cases r
  cases s
  simp_all [identity]

/-! ## Tags of filters and of session policies -/

private theorem take_two_of_prefix {xs ys : List Char} (h : xs <+: ys) (hlen : 2 ≤ xs.length) :
    xs.take 2 = ys.take 2 := by
  obtain ⟨t, rfl⟩ := h
  rw [List.take_append_of_le_length hlen]

/-- The tag of a filter is mistaken for that of a session policy only if the filter is named like
one. -/
theorem isSessionTag_applies (name label : String)
    (h : Text.startsWith name "Session Management:" = false) :
    isSessionTag (name ++ " applies to " ++ label) = false := by
  cases hs : isSessionTag (name ++ " applies to " ++ label) with
  | false => rfl
  | true =>
    exfalso
    let start := "Session Management:".toList
    have hstart : (start ++ [' ']) <+: name.toList ++ (" applies to ".toList ++ label.toList) := by
      have hprefix := List.isPrefixOf_iff_prefix.mp hs
      rw [String.toList_append, String.toList_append, List.append_assoc] at hprefix
      exact hprefix
    have hnot : ¬ start <+: name.toList := by
      rw [← List.isPrefixOf_iff_prefix]
      intro ht
      exact Bool.false_ne_true (h.symm.trans ht)
    rcases List.prefix_or_prefix_of_prefix ((List.prefix_append start [' ']).trans hstart)
      (List.prefix_append name.toList (" applies to ".toList ++ label.toList)) with hp | hp
    · exact hnot hp
    · -- The name ends inside the start, and what follows it there is not what follows it here.
      obtain ⟨rest, hrest⟩ := hp
      have hdrop : rest = start.drop name.toList.length := by
        rw [← hrest, List.drop_left]
      have hlt : name.toList.length < start.length := by
        rw [← hrest, List.length_append]
        apply Nat.lt_add_of_pos_right
        apply List.length_pos_iff.mpr
        rintro rfl
        exact hnot ⟨[], by simpa using hrest.symm⟩
      rw [← hrest, List.append_assoc, List.prefix_append_right_inj, hdrop] at hstart
      have htwo := take_two_of_prefix hstart (by simp; omega)
      have hall : ∀ n < start.length, (start.drop n ++ [' ']).take 2 ≠ [' ', 'a'] := by decide
      exact hall name.toList.length hlt htwo

private theorem isSessionTag_ascii (text label : String) (c : Char) (rest : List Char)
    (htext : text.toList = c :: rest) (hc : c ≠ 'S') : isSessionTag (text ++ label) = false := by
  unfold isSessionTag Text.startsWith
  rw [String.toList_append, htext]
  simp [SessionPolicy.tagStart, List.isPrefixOf, Ne.symm hc]

private theorem isSessionTag_tag (policy : SessionPolicy) : isSessionTag policy.tag = true := by
  cases policy <;> decide

/-- Unless a filter is named like one, what it leaves is no tag of a session policy. -/
theorem isSessionTag_of_leaves {c : Filter.Coverage} {path x : String} (h : c.Leaves path x)
    (hname : Text.startsWith c.name "Session Management:" = false) : isSessionTag x = false := by
  cases h with
  | unresolved hf hp => decide
  | guarding hg =>
    cases Filter.familyOf c.filterType with
    | apiKey => exact isSessionTag_ascii _ _ 'A' _ rfl (by decide)
    | jwt => exact isSessionTag_ascii _ _ 'J' _ rfl (by decide)
    | basic => exact isSessionTag_ascii _ _ 'B' _ rfl (by decide)
    | custom => exact isSessionTag_applies _ _ hname

end EndpointRecord

namespace ChainAnalysis

open EndpointRecord EndpointAudit.Filter

/-! ## One analysis -/

/-- A record after one analysis. -/
def applyTo (settings : Settings) (a : ChainAnalysis) (r : EndpointRecord) : EndpointRecord :=
  ((r.mergeChain settings a.classification).applyFilters settings a.filters).1

/-- The tags that an analysis adds to an endpoint at a path, but for those of session policies. -/
def Adds (a : ChainAnalysis) (path x : String) : Prop :=
  x ∈ chainFeatures a.classification ∨ ∃ c ∈ a.filters, c.Leaves path x

/-- No filter is named like the tag of a session policy. -/
def PlainNames (a : ChainAnalysis) : Prop :=
  ∀ c ∈ a.filters, Text.startsWith c.name "Session Management:" = false

theorem apply_fst (settings : Settings) (a : ChainAnalysis) (records : List EndpointRecord) :
    (a.apply settings records).1 = records.map (a.applyTo settings) := by
  simp [apply, correlate, applyTo, Function.comp_def]

theorem applyTo_identity (settings : Settings) (a : ChainAnalysis) (r : EndpointRecord) :
    (a.applyTo settings r).identity = r.identity :=
  (applyFilters_identity _ _ _).trans (mergeChain_identity _ _ _)

theorem applyTo_path (settings : Settings) (a : ChainAnalysis) (r : EndpointRecord) :
    (a.applyTo settings r).path = r.path :=
  path_eq_of_identity (applyTo_identity settings a r)

theorem mergeChain_path (settings : Settings) (a : ChainAnalysis) (r : EndpointRecord) :
    (r.mergeChain settings a.classification).path = r.path :=
  path_eq_of_identity (mergeChain_identity settings a.classification r)

theorem applyTo_apiKeyRequired (settings : Settings) (a : ChainAnalysis) (r : EndpointRecord) :
    (a.applyTo settings r).apiKeyRequired = true ↔ r.apiKeyRequired = true ∨
      a.classification.chainWideApiKey = true ∨ ∃ c ∈ a.filters, c.Demands .apiKey r.path := by
  rw [applyTo, applyFilters_apiKeyRequired, mergeChain_apiKeyRequired, mergeChain_path, or_assoc]

theorem applyTo_basicAuthRequired (settings : Settings) (a : ChainAnalysis)
    (r : EndpointRecord) :
    (a.applyTo settings r).basicAuthRequired = true ↔ r.basicAuthRequired = true ∨
      a.classification.basicAuth = true ∨ ∃ c ∈ a.filters, c.Demands .basic r.path := by
  rw [applyTo, applyFilters_basicAuthRequired, mergeChain_basicAuthRequired, mergeChain_path,
    or_assoc]

theorem applyTo_apiKeyHeader (settings : Settings) (a : ChainAnalysis) (r : EndpointRecord) :
    (a.applyTo settings r).apiKeyHeader =
      (lastHeader? settings r.path a.filters).or
        (r.apiKeyHeader.or (assumedHeader? settings a.classification)) := by
  rw [applyTo, applyFilters_apiKeyHeader, mergeChain_apiKeyHeader, mergeChain_path]

theorem applyTo_sessionPolicy (settings : Settings) (a : ChainAnalysis) (r : EndpointRecord) :
    (a.applyTo settings r).sessionPolicy = policyBehind a.classification r.sessionPolicy := by
  rw [applyTo, applyFilters_sessionPolicy, mergeChain_sessionPolicy]

theorem mem_applyTo_features (settings : Settings) (a : ChainAnalysis) (r : EndpointRecord)
    (x : String) :
    x ∈ (a.applyTo settings r).features ↔
      (x ∈ r.features ∧ (isSessionTag x = true →
        policyBehind a.classification r.sessionPolicy = r.sessionPolicy)) ∨
      a.Adds r.path x ∨
      ∃ policy, policyBehind a.classification r.sessionPolicy = some policy ∧ x = policy.tag := by
  rw [applyTo, mem_applyFilters_features, mem_mergeChain_features, mergeChain_path, Adds]
  constructor
  · rintro ((hkept | hchain | htag) | hfilter)
    · exact .inl hkept
    · exact .inr (.inl (.inl hchain))
    · exact .inr (.inr htag)
    · exact .inr (.inl (.inr hfilter))
  · rintro (hkept | (hchain | hfilter) | htag)
    · exact .inl (.inl hkept)
    · exact .inl (.inr (.inl hchain))
    · exact .inr hfilter
    · exact .inl (.inr (.inr htag))

private theorem isSessionTag_of_adds {a : ChainAnalysis} (ha : a.PlainNames) {path x : String}
    (h : a.Adds path x) : isSessionTag x = false := by
  rcases h with hchain | ⟨c, hc, hleaves⟩
  · exact ((mem_chainFeatures _ _).mp hchain).2.1
  · exact isSessionTag_of_leaves hleaves (ha c hc)

/-! ## A sequence of analyses -/

/-- A record after several analyses. -/
def applyAllTo (settings : Settings) (as : List ChainAnalysis) (r : EndpointRecord) :
    EndpointRecord :=
  as.foldl (fun r a => a.applyTo settings r) r

/-- The session policies of the chains, in order. -/
def policies (as : List ChainAnalysis) : List SessionPolicy :=
  as.filterMap (·.classification.sessionPolicy)

@[simp] theorem applyAllTo_nil (settings : Settings) (r : EndpointRecord) :
    applyAllTo settings [] r = r := rfl

@[simp] theorem applyAllTo_cons (settings : Settings) (a : ChainAnalysis)
    (as : List ChainAnalysis) (r : EndpointRecord) :
    applyAllTo settings (a :: as) r = applyAllTo settings as (a.applyTo settings r) := rfl

/-- Every record goes through the sequence on its own. -/
theorem applyAll_eq_map (settings : Settings) (as : List ChainAnalysis)
    (records : List EndpointRecord) :
    applyAll settings as records = records.map (applyAllTo settings as) := by
  induction as generalizing records with
  | nil => exact (List.map_id records).symm
  | cons a as ih =>
    have hcons : applyAll settings (a :: as) records =
        applyAll settings as (a.apply settings records).1 := rfl
    rw [hcons, ih, apply_fst, List.map_map]
    rfl

theorem offerAll_policies_cons (a : ChainAnalysis) (as : List ChainAnalysis)
    (known : Option SessionPolicy) :
    SessionPolicy.offerAll known (policies (a :: as)) =
      SessionPolicy.offerAll (policyBehind a.classification known) (policies as) := by
  cases h : a.classification.sessionPolicy <;> simp [policies, policyBehind, h]

theorem applyAllTo_identity (settings : Settings) (as : List ChainAnalysis)
    (r : EndpointRecord) : (applyAllTo settings as r).identity = r.identity := by
  induction as generalizing r with
  | nil => rfl
  | cons a as ih => rw [applyAllTo_cons, ih, applyTo_identity]

theorem applyAllTo_sessionPolicy (settings : Settings) (as : List ChainAnalysis)
    (r : EndpointRecord) :
    (applyAllTo settings as r).sessionPolicy =
      SessionPolicy.offerAll r.sessionPolicy (policies as) := by
  induction as generalizing r with
  | nil => rfl
  | cons a as ih => rw [applyAllTo_cons, ih, applyTo_sessionPolicy, offerAll_policies_cons]

theorem applyAllTo_apiKeyRequired (settings : Settings) (as : List ChainAnalysis)
    (r : EndpointRecord) :
    (applyAllTo settings as r).apiKeyRequired = true ↔ r.apiKeyRequired = true ∨
      ∃ a ∈ as, a.classification.chainWideApiKey = true ∨
        ∃ c ∈ a.filters, c.Demands .apiKey r.path := by
  induction as generalizing r with
  | nil => simp
  | cons a as ih =>
    rw [applyAllTo_cons, ih, applyTo_apiKeyRequired, applyTo_path]
    simp [or_assoc]

theorem applyAllTo_basicAuthRequired (settings : Settings) (as : List ChainAnalysis)
    (r : EndpointRecord) :
    (applyAllTo settings as r).basicAuthRequired = true ↔ r.basicAuthRequired = true ∨
      ∃ a ∈ as, a.classification.basicAuth = true ∨
        ∃ c ∈ a.filters, c.Demands .basic r.path := by
  induction as generalizing r with
  | nil => simp
  | cons a as ih =>
    rw [applyAllTo_cons, ih, applyTo_basicAuthRequired, applyTo_path]
    simp [or_assoc]

/-- The header that some chain of a sequence assumes. -/
def assumedBy? (settings : Settings) (as : List ChainAnalysis) : Option String :=
  if ∃ a ∈ as, a.classification.chainWideApiKey = true then some settings.apiKeyHeader else none

private theorem assumedBy?_cons (settings : Settings) (a : ChainAnalysis)
    (as : List ChainAnalysis) :
    assumedBy? settings (a :: as) =
      (assumedHeader? settings a.classification).or (assumedBy? settings as) := by
  cases h : a.classification.chainWideApiKey <;> simp [assumedBy?, assumedHeader?, h]

theorem applyAllTo_apiKeyHeader (settings : Settings) (as : List ChainAnalysis)
    (r : EndpointRecord) :
    (applyAllTo settings as r).apiKeyHeader =
      (lastHeader? settings r.path (as.flatMap (·.filters))).or
        (r.apiKeyHeader.or (assumedBy? settings as)) := by
  induction as generalizing r with
  | nil => simp [lastHeader?, assumedBy?]
  | cons a as ih =>
    rw [applyAllTo_cons, ih, applyTo_apiKeyHeader, applyTo_path, assumedBy?_cons,
      List.flatMap_cons, lastHeader?_append]
    simp only [Option.or_assoc]

/-- The policy behind a sequence is the old one only if no chain of it changed the policy. -/
theorem policyBehind_eq_of_offerAll_eq {a : ChainAnalysis} {as : List ChainAnalysis}
    {known : Option SessionPolicy}
    (h : SessionPolicy.offerAll known (policies (a :: as)) = known) :
    policyBehind a.classification known = known := by
  rw [offerAll_policies_cons] at h
  cases hp : a.classification.sessionPolicy with
  | none => simp [policyBehind, hp]
  | some policy =>
    have hbehind : policyBehind a.classification known = policy.offer known := by
      simp [policyBehind, hp]
    rw [hbehind] at h ⊢
    exact SessionPolicy.offer_of_not_exceeds (SessionPolicy.not_exceeds_of_offerAll_eq h)

/-- The features behind a sequence. Those that were there stay, but for the tags of session
policies when the policy changes; the tag of the policy that is left is there. -/
theorem mem_applyAllTo_features (settings : Settings) (as : List ChainAnalysis)
    (hnames : ∀ a ∈ as, a.PlainNames) (r : EndpointRecord) (x : String) :
    x ∈ (applyAllTo settings as r).features ↔
      (x ∈ r.features ∧ (isSessionTag x = true →
        SessionPolicy.offerAll r.sessionPolicy (policies as) = r.sessionPolicy)) ∨
      (∃ a ∈ as, a.Adds r.path x) ∨
      (as ≠ [] ∧ ∃ policy, SessionPolicy.offerAll r.sessionPolicy (policies as) = some policy ∧
        x = policy.tag) := by
  induction as generalizing r with
  | nil => simp [policies]
  | cons a as ih =>
    have hfirst : a.Adds r.path x → isSessionTag x = false :=
      isSessionTag_of_adds (hnames a (by simp))
    rw [applyAllTo_cons, ih (fun b hb => hnames b (by simp [hb])), mem_applyTo_features,
      applyTo_sessionPolicy, applyTo_path]
    have hold := @policyBehind_eq_of_offerAll_eq a as r.sessionPolicy
    have hempty : as = [] → SessionPolicy.offerAll r.sessionPolicy (policies (a :: as)) =
        policyBehind a.classification r.sessionPolicy := by
      rintro rfl
      rw [offerAll_policies_cons]
      rfl
    rw [← offerAll_policies_cons]
    generalize SessionPolicy.offerAll r.sessionPolicy (policies (a :: as)) = final at *
    generalize policyBehind a.classification r.sessionPolicy = next at *
    constructor
    · rintro (⟨⟨hx, hnext⟩ | hadds | ⟨policy, hnext, rfl⟩, hfinal⟩ | ⟨b, hb, hadds⟩ | ⟨-, htag⟩)
      · exact .inl ⟨hx, fun hs => (hfinal hs).trans (hnext hs)⟩
      · exact .inr (.inl ⟨a, by simp, hadds⟩)
      · exact .inr (.inr ⟨by simp, policy, (hfinal (isSessionTag_tag policy)).trans hnext, rfl⟩)
      · exact .inr (.inl ⟨b, by simp [hb], hadds⟩)
      · exact .inr (.inr ⟨by simp, htag⟩)
    · rintro (⟨hx, hfinal⟩ | ⟨b, hb, hadds⟩ | ⟨-, policy, hfinal, rfl⟩)
      · exact .inl ⟨.inl ⟨hx, fun hs => hold (hfinal hs)⟩,
          fun hs => (hfinal hs).trans (hold (hfinal hs)).symm⟩
      · rcases List.mem_cons.mp hb with rfl | hb
        · refine .inl ⟨.inr (.inl hadds), fun hs => ?_⟩
          rw [hfirst hadds] at hs
          exact absurd hs Bool.false_ne_true
        · exact .inr (.inl ⟨b, hb, hadds⟩)
      · by_cases has : as = []
        · have hnext := (hempty has).symm.trans hfinal
          exact .inl ⟨.inr (.inr ⟨policy, hnext, rfl⟩), fun _ => hempty has⟩
        · exact .inr (.inr ⟨has, policy, hfinal, rfl⟩)

/-! ## The record that is left -/

/-- What a sequence of analyses makes of a fresh record `r`, field by field. -/
structure Outcome (settings : Settings) (as : List ChainAnalysis) (r s : EndpointRecord) :
    Prop where
  identity : s.identity = r.identity
  apiKeyRequired : s.apiKeyRequired = true ↔
    ∃ a ∈ as, a.classification.chainWideApiKey = true ∨
      ∃ c ∈ a.filters, familyOf c.filterType = .apiKey ∧
        ∃ pattern ∈ c.patterns, Route.covers pattern r.path = true
  /-- The last filter that asks for a key names the header; without one a chain that asks for a
  key assumes the standard header. -/
  apiKeyHeader : s.apiKeyHeader =
    match ((as.flatMap (·.filters)).filter fun c => decide (c.Demands .apiKey r.path)).getLast? with
    | some c => some (c.headerOr settings.apiKeyHeader)
    | none =>
      if ∃ a ∈ as, a.classification.chainWideApiKey = true then some settings.apiKeyHeader
      else none
  basicAuthRequired : s.basicAuthRequired = true ↔
    ∃ a ∈ as, a.classification.basicAuth = true ∨
      ∃ c ∈ a.filters, familyOf c.filterType = .basic ∧
        ∃ pattern ∈ c.patterns, Route.covers pattern r.path = true
  sessionPolicy : SessionPolicy.IsFirstMaximal
    (as.filterMap (·.classification.sessionPolicy)) s.sessionPolicy
  features : ∀ x, x ∈ s.features ↔
    (∃ a ∈ as, x ∈ a.classification.features ∧
      Text.startsWith x "Session Management: " = false ∧
      (a.classification.chainWideApiKey = true ∨ x ≠ "API Key Authentication")) ∨
    (∃ a ∈ as, ∃ c ∈ a.filters, c.Leaves r.path x) ∨
    ∃ policy, s.sessionPolicy = some policy ∧ x = "Session Management: " ++ policy.name

theorem lastHeader?_eq (settings : Settings) (path : String) (cs : List Coverage) :
    lastHeader? settings path cs =
      ((cs.filter fun c => decide (c.Demands .apiKey path)).getLast?).map
        (·.headerOr settings.apiKeyHeader) := by
  rw [lastHeader?, ← List.getLast?_map]
  congr 1
  induction cs with
  | nil => rfl
  | cons c cs ih => by_cases h : c.Demands .apiKey path <;> simp [demandedHeader?, h, ih]

private theorem outcome_applyAllTo (settings : Settings) (as : List ChainAnalysis)
    (hnames : ∀ a ∈ as, a.PlainNames) (r : EndpointRecord) (hr : r.Fresh) :
    Outcome settings as r (applyAllTo settings as r) where
  identity := applyAllTo_identity settings as r
  apiKeyRequired := by
    rw [applyAllTo_apiKeyRequired, hr.apiKeyRequired]
    simp [Coverage.Demands, Coverage.Guards]
  apiKeyHeader := by
    rw [applyAllTo_apiKeyHeader, lastHeader?_eq, hr.apiKeyHeader]
    generalize ((as.flatMap (·.filters)).filter _).getLast? = last
    cases last <;> simp [assumedBy?]
  basicAuthRequired := by
    rw [applyAllTo_basicAuthRequired, hr.basicAuthRequired]
    simp [Coverage.Demands, Coverage.Guards]
  sessionPolicy := by
    rw [applyAllTo_sessionPolicy, hr.sessionPolicy]
    exact SessionPolicy.isFirstMaximal_offerAll none (policies as)
  features := by
    intro x
    rw [mem_applyAllTo_features settings as hnames, applyAllTo_sessionPolicy, hr.features,
      hr.sessionPolicy]
    constructor
    · rintro (⟨hx, -⟩ | ⟨a, ha, hchain | hfilter⟩ | ⟨-, htag⟩)
      · exact absurd hx (TagSet.not_mem_empty x)
      · exact .inl ⟨a, ha, (mem_chainFeatures _ _).mp hchain⟩
      · exact .inr (.inl ⟨a, ha, hfilter⟩)
      · exact .inr (.inr htag)
    · rintro (⟨a, ha, hchain⟩ | ⟨a, ha, hfilter⟩ | ⟨policy, hpolicy, htag⟩)
      · exact .inr (.inl ⟨a, ha, .inl ((mem_chainFeatures _ _).mpr hchain)⟩)
      · exact .inr (.inl ⟨a, ha, .inr hfilter⟩)
      · refine .inr (.inr ⟨?_, policy, hpolicy, htag⟩)
        rintro rfl
        simp [policies] at hpolicy

/-- **The record behind a sequence of chains.** -/
theorem applyAll_outcome (settings : Settings) (as : List ChainAnalysis)
    (records : List EndpointRecord)
    (hnames : ∀ a ∈ as, ∀ c ∈ a.filters, Text.startsWith c.name "Session Management:" = false)
    (hfresh : ∀ r ∈ records, r.Fresh) :
    List.Forall₂ (Outcome settings as) records (applyAll settings as records) := by
  rw [applyAll_eq_map, List.forall₂_map_right_iff, List.forall₂_same]
  intro r hr
  exact outcome_applyAllTo settings as hnames r (hfresh r hr)

/-- A chain that asks for an API key on its own, and one with a filter that reads a header. -/
def keyedChains : List ChainAnalysis :=
  [{ classification :=
      { apiKey := true, chainWideApiKey := true, sessionPolicy := some .standard
        features := TagSet.ofList ["API Key Authentication", "Session Management: DEFAULT"] } },
   { classification := { basicAuth := true, sessionPolicy := some .stateless }
     filters := [{ filterType := "com.acme.ApiKeyAuthFilter"
                   patterns := TagSet.ofList ["/api/**"], header := some "X-Client" },
                 { filterType := "com.acme.AuditFilter", patterns := TagSet.ofList ["*"] }] }]

theorem plainNames_keyedChains : ∀ a ∈ keyedChains, ∀ c ∈ a.filters,
    Text.startsWith c.name "Session Management:" = false := by
  decide

theorem applyAll_outcome_keyedChains :
    (∀ a ∈ keyedChains, ∀ c ∈ a.filters,
      Text.startsWith c.name "Session Management:" = false) ∧
    List.Forall₂ (Outcome {} keyedChains) [{ path := "/api/users" }, { path := "/health" }]
      (applyAll {} keyedChains [{ path := "/api/users" }, { path := "/health" }]) := by
  refine ⟨plainNames_keyedChains, applyAll_outcome {} keyedChains _ plainNames_keyedChains ?_⟩
  intro r hr
  simp only [List.mem_cons, List.not_mem_nil, or_false] at hr
  rcases hr with rfl | rfl <;> exact ⟨rfl, rfl, rfl, rfl, rfl⟩

/-! ## Going through a sequence again -/

private theorem policyBehind_policyBehind (c : Chain.Classification)
    (known : Option SessionPolicy) :
    policyBehind c (policyBehind c known) = policyBehind c known :=
  SessionPolicy.offerAll_offerAll known c.sessionPolicy.toList

private theorem mem_features_again (settings : Settings) (as : List ChainAnalysis)
    (h : as.length = 1 ∨ ∀ a ∈ as, a.PlainNames) (r : EndpointRecord) (x : String) :
    x ∈ (applyAllTo settings as (applyAllTo settings as r)).features ↔
      x ∈ (applyAllTo settings as r).features := by
  rcases h with hone | hnames
  · -- One chain does not take away what its own filters left.
    obtain ⟨a, rfl⟩ := List.length_eq_one_iff.mp hone
    simp only [applyAllTo_cons, applyAllTo_nil]
    rw [mem_applyTo_features, applyTo_sessionPolicy, applyTo_path, policyBehind_policyBehind]
    refine ⟨?_, fun hx => .inl ⟨hx, fun _ => rfl⟩⟩
    rintro (⟨hx, -⟩ | hadded)
    · exact hx
    · exact (mem_applyTo_features settings a r x).mpr (.inr hadded)
  · rw [mem_applyAllTo_features settings as hnames, applyAllTo_sessionPolicy,
      path_eq_of_identity (applyAllTo_identity settings as r), SessionPolicy.offerAll_offerAll]
    refine ⟨?_, fun hx => .inl ⟨hx, fun _ => rfl⟩⟩
    rintro (⟨hx, -⟩ | hadded)
    · exact hx
    · exact (mem_applyAllTo_features settings as hnames r x).mpr (.inr hadded)

private theorem applyAllTo_applyAllTo (settings : Settings) (as : List ChainAnalysis)
    (h : as.length = 1 ∨ ∀ a ∈ as, a.PlainNames) (r : EndpointRecord) :
    applyAllTo settings as (applyAllTo settings as r) = applyAllTo settings as r := by
  have hpath := path_eq_of_identity (applyAllTo_identity settings as r)
  apply eq_of_fields
  · exact applyAllTo_identity settings as _
  · simp only [applyAllTo_apiKeyRequired, hpath, or_assoc, or_self]
  · simp only [applyAllTo_apiKeyHeader, hpath]
    cases lastHeader? settings r.path (as.flatMap (·.filters)) <;>
      cases r.apiKeyHeader <;> cases assumedBy? settings as <;> rfl
  · simp only [applyAllTo_basicAuthRequired, hpath, or_assoc, or_self]
  · rw [applyAllTo_sessionPolicy, applyAllTo_sessionPolicy, SessionPolicy.offerAll_offerAll]
  · exact mem_features_again settings as h r

/-- **Analysing again changes nothing.** Records may be in any state. A sequence of several chains
must not have a filter whose tag a later chain takes for that of a session policy. -/
theorem applyAll_applyAll (settings : Settings) (as : List ChainAnalysis)
    (records : List EndpointRecord)
    (h : as.length = 1 ∨
      ∀ a ∈ as, ∀ c ∈ a.filters, Text.startsWith c.name "Session Management:" = false) :
    applyAll settings as (applyAll settings as records) = applyAll settings as records := by
  simp only [applyAll_eq_map, List.map_map]
  apply List.map_congr_left
  intro r _
  exact applyAllTo_applyAllTo settings as h r

/-- A chain with a filter that is named like the tag of a session policy. -/
def misnamedChain : ChainAnalysis :=
  { classification := { sessionPolicy := some .custom }
    filters := [{ filterType := "Session Management: Filter", patterns := TagSet.ofList ["*"] }] }

theorem applyAll_applyAll_keyedChains :
    (∀ a ∈ keyedChains, ∀ c ∈ a.filters,
      Text.startsWith c.name "Session Management:" = false) ∧
    (let stale : EndpointRecord :=
      { path := "/api/users", apiKeyHeader := some "X-Old", sessionPolicy := some .custom
        features := TagSet.ofList ["Session Management: CUSTOM", "CSRF Disabled"] }
    applyAll {} keyedChains (applyAll {} keyedChains [stale]) = applyAll {} keyedChains [stale] ∧
    applyAll {} [misnamedChain] (applyAll {} [misnamedChain] [stale]) =
      applyAll {} [misnamedChain] [stale]) := by
  exact ⟨plainNames_keyedChains, applyAll_applyAll {} keyedChains _ (.inr plainNames_keyedChains),
    applyAll_applyAll {} [misnamedChain] _ (.inl rfl)⟩

-- Of two chains the second takes away what the misnamed filter of the first has left.
example : applyAll {} (misnamedChain :: keyedChains)
      (applyAll {} (misnamedChain :: keyedChains) [{ path := "/" }]) ≠
    applyAll {} (misnamedChain :: keyedChains) [{ path := "/" }] := by
  decide +kernel

end ChainAnalysis

end EndpointAudit
