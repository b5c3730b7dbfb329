import EndpointAudit.Proofs.Chain.Classification

/-!
# Independence of the rules

All rules work on one classification, but none looks at what another has left there. A list of
rules therefore finds the same in any order and with any repetitions, and two lists together find
what each of them finds alone. The session policy and the inserted filters are each set by a single
rule, so they are those of the list that holds this rule.
-/

namespace EndpointAudit.Chain

theorem Classification.eq_of_fields {c d : Classification} (hbasic : c.basicAuth = d.basicAuth)
    (hkey : c.apiKey = d.apiKey) (hwide : c.chainWideApiKey = d.chainWideApiKey)
    (hpolicy : c.sessionPolicy = d.sessionPolicy) (hfeatures : c.features = d.features)
    (hfilters : c.filters = d.filters) : c = d := by
  cases c
  cases d
  simp_all

variable (trace : List Event)

private theorem classifyBy_congr {rules others : List Rule}
    (h : ∀ rule, rule ∈ rules ↔ rule ∈ others) :
    classifyBy rules trace = classifyBy others trace := by
  have hpolicy : (classifyBy rules trace).sessionPolicy =
      (classifyBy others trace).sessionPolicy := by
    simp only [classifyBy_sessionPolicy, h]
  apply Classification.eq_of_fields
  · apply Bool.eq_iff_iff.mpr
    simp only [classifyBy_basicAuth, h]
  · apply Bool.eq_iff_iff.mpr
    simp only [classifyBy_apiKey, h]
  · apply Bool.eq_iff_iff.mpr
    simp only [classifyBy_chainWideApiKey, h]
  · exact hpolicy
  · ext x
    simp only [mem_classifyBy_features, hpolicy, h]
  · simp only [classifyBy_filters, h]

/-! ## Two lists of rules -/

/-- A field that a single rule sets is the same for both lists together as for each list that holds
the rule, and has its first value if neither does. -/
structure SetBy {α : Type} (rule : Rule) (rules more : List Rule) (first left right whole : α) :
    Prop where
  left : rule ∈ rules → whole = left
  right : rule ∈ more → whole = right
  neither : rule ∉ rules → rule ∉ more → whole = first

/-- `whole` puts together what two lists of rules find: flags and tags are those of either list,
and the fields that a single rule sets are those of the list that holds the rule. -/
structure Classification.IsJoin (rules more : List Rule) (left right whole : Classification) :
    Prop where
  basicAuth : whole.basicAuth = (left.basicAuth || right.basicAuth)
  apiKey : whole.apiKey = (left.apiKey || right.apiKey)
  chainWideApiKey : whole.chainWideApiKey = (left.chainWideApiKey || right.chainWideApiKey)
  features : whole.features = left.features ∪ right.features
  sessionPolicy : SetBy .session rules more none
    left.sessionPolicy right.sessionPolicy whole.sessionPolicy
  filters : SetBy .filterInsertion rules more [] left.filters right.filters whole.filters

theorem setBy_append {α : Type} {rule : Rule} {f : List Rule → α} {found first : α}
    (hf : ∀ rules, f rules = if rule ∈ rules then found else first) (rules more : List Rule) :
    SetBy rule rules more first (f rules) (f more) (f (rules ++ more)) := by
  constructor
  · intro hmem
    simp [hf, hmem]
  · intro hmem
    simp [hf, hmem]
  · intro hrules hmore
    simp [hf, hrules, hmore]

variable (rules more : List Rule)

theorem exists_applies_append (Q : Rule → Prop) :
    (∃ w ∈ windows trace, ∃ rule ∈ rules ++ more, rule.applies w = true ∧ Q rule) ↔
      (∃ w ∈ windows trace, ∃ rule ∈ rules, rule.applies w = true ∧ Q rule) ∨
      ∃ w ∈ windows trace, ∃ rule ∈ more, rule.applies w = true ∧ Q rule := by
  simp only [List.mem_append, or_and_right, exists_or, and_or_left]

private theorem sessionPolicy_append_eq_some (policy : SessionPolicy) :
    (classifyBy (rules ++ more) trace).sessionPolicy = some policy ↔
      (classifyBy rules trace).sessionPolicy = some policy ∨
      (classifyBy more trace).sessionPolicy = some policy := by
  simp only [classifyBy_sessionPolicy]
  by_cases hrules : Rule.session ∈ rules <;> by_cases hmore : Rule.session ∈ more <;>
    simp [hrules, hmore]

private theorem classifyBy_append : Classification.IsJoin rules more (classifyBy rules trace)
    (classifyBy more trace) (classifyBy (rules ++ more) trace) where
  basicAuth := by
    apply Bool.eq_iff_iff.mpr
    simp only [Bool.or_eq_true, classifyBy_basicAuth, exists_applies_append]
  apiKey := by
    apply Bool.eq_iff_iff.mpr
    simp only [Bool.or_eq_true, classifyBy_apiKey, exists_applies_append]
  chainWideApiKey := by
    apply Bool.eq_iff_iff.mpr
    simp only [Bool.or_eq_true, classifyBy_chainWideApiKey, exists_applies_append]
  features := by
    ext x
    simp only [TagSet.mem_union, mem_classifyBy_features, exists_applies_append,
      sessionPolicy_append_eq_some, or_and_right, exists_or]
    exact or_or_or_comm
  sessionPolicy := setBy_append (classifyBy_sessionPolicy · trace) rules more
  filters := setBy_append (classifyBy_filters · trace) rules more

/-- **The rules are independent.** What a list of rules finds in a trace depends only on which
rules it holds, and two lists together find what each of them finds. -/
theorem classifyBy_independent :
    (∀ others, (∀ rule, rule ∈ others ↔ rule ∈ rules) →
      classifyBy others trace = classifyBy rules trace) ∧
    Classification.IsJoin rules more (classifyBy rules trace) (classifyBy more trace)
      (classifyBy (rules ++ more) trace) :=
  ⟨fun _ h => classifyBy_congr trace h, classifyBy_append trace rules more⟩

/-- A trace in which several rules apply to one call and two filters are inserted. -/
def layeredTrace : List Event :=
  [.call ⟨"x.ApiKeyAuthFilter", "<init>", "()V"⟩,
    .call ⟨"HttpSecurity", "addFilter", "(Ljakarta/servlet/Filter;)V"⟩,
    .call ⟨"HttpSecurity", "addFilterAfter", "(Lx/AuditFilter;Ljava/lang/Class;)V"⟩,
    .call ⟨"HttpSecurity", "sessionFixation", "()V"⟩,
    .call ⟨"HttpSecurity", "httpBasic", "()V"⟩]

theorem classifyBy_independent_layeredTrace :
    (∀ rule, rule ∈ [Rule.session, .filterInsertion, .apiKeyFilter, .filterInsertion] ↔
      rule ∈ [Rule.apiKeyFilter, .filterInsertion, .session]) ∧
    classifyBy [.session, .filterInsertion, .apiKeyFilter, .filterInsertion] layeredTrace =
      classifyBy [.apiKeyFilter, .filterInsertion, .session] layeredTrace ∧
    (classifyBy [.apiKeyFilter, .filterInsertion, .session, .basicAuth] layeredTrace).filters =
      ["x.ApiKeyAuthFilter", "x.AuditFilter"] := by
  have hmem : ∀ rule, rule ∈ [Rule.session, .filterInsertion, .apiKeyFilter, .filterInsertion] ↔
      rule ∈ [Rule.apiKeyFilter, .filterInsertion, .session] := by
    intro rule
    cases rule <;> decide
  obtain ⟨hsame, hjoin⟩ := classifyBy_independent layeredTrace
    [.apiKeyFilter, .filterInsertion, .session] [.basicAuth]
  refine ⟨hmem, hsame _ hmem, (hjoin.filters.left (by decide)).trans ?_⟩
  decide +kernel

end EndpointAudit.Chain
