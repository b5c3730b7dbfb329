import EndpointAudit.Proofs.ClassFile.Layout
import EndpointAudit.Proofs.Data.Except
import EndpointAudit.Proofs.Endpoint.MergeRun
import EndpointAudit.Proofs.Filter.Memo
import EndpointAudit.Proofs.Report.Grouping

/-!
# What a scan leaves alone

A chain adds to a record and takes nothing away but the tag of a session policy that gives way. So
the endpoints of a report are the endpoints that were discovered, and the configuration methods
have no say in where they are, who may call them or how they are grouped.
-/

namespace EndpointAudit

namespace EndpointRecord

/-- The second record is the first one with something added. -/
structure Enriches (before after : EndpointRecord) : Prop where
  identity : after.identity = before.identity
  apiKeyRequired : before.apiKeyRequired = true → after.apiKeyRequired = true
  basicAuthRequired : before.basicAuthRequired = true → after.basicAuthRequired = true
  apiKeyHeader : before.apiKeyHeader ≠ none → after.apiKeyHeader ≠ none
  sessionPolicy : ∀ policy, before.sessionPolicy = some policy →
    ∃ policy', after.sessionPolicy = some policy' ∧ policy.rank ≤ policy'.rank
  features : ∀ x ∈ before.features, Text.startsWith x "Session Management: " = false →
    x ∈ after.features

theorem Enriches.refl (r : EndpointRecord) : r.Enriches r where
  identity := rfl
  apiKeyRequired := id
  basicAuthRequired := id
  apiKeyHeader := id
  sessionPolicy policy h := ⟨policy, h, Nat.le_refl _⟩
  features _ hx _ := hx

theorem Enriches.trans {r s t : EndpointRecord} (h : r.Enriches s) (h' : s.Enriches t) :
    r.Enriches t where
  identity := h'.identity.trans h.identity
  apiKeyRequired := h'.apiKeyRequired ∘ h.apiKeyRequired
  basicAuthRequired := h'.basicAuthRequired ∘ h.basicAuthRequired
  apiKeyHeader := h'.apiKeyHeader ∘ h.apiKeyHeader
  sessionPolicy policy hr := by
    obtain ⟨policy', hs, hle⟩ := h.sessionPolicy policy hr
    obtain ⟨policy'', ht, hle'⟩ := h'.sessionPolicy policy' hs
    exact ⟨policy'', ht, Nat.le_trans hle hle'⟩
  features x hx hplain := h'.features x (h.features x hx hplain) hplain

end EndpointRecord

namespace ChainAnalysis

open EndpointRecord

theorem enriches_applyTo (settings : Settings) (a : ChainAnalysis) (r : EndpointRecord) :
    r.Enriches (a.applyTo settings r) where
  identity := applyTo_identity settings a r
  apiKeyRequired h := (applyTo_apiKeyRequired settings a r).mpr (.inl h)
  basicAuthRequired h := (applyTo_basicAuthRequired settings a r).mpr (.inl h)
  apiKeyHeader h := by
    rw [applyTo_apiKeyHeader]
    intro hnone
    rw [Option.or_eq_none_iff, Option.or_eq_none_iff] at hnone
    exact h hnone.2.1
  sessionPolicy policy h := by
    have hle := SessionPolicy.level_le_offerAll a.classification.sessionPolicy.toList
      r.sessionPolicy
    rw [applyTo_sessionPolicy, policyBehind]
    rw [h, SessionPolicy.level_some] at hle
    rw [h]
    cases hafter : SessionPolicy.offerAll (some policy) a.classification.sessionPolicy.toList with
    | none =>
      rw [hafter] at hle
      exact absurd hle (Nat.not_succ_le_zero _)
    | some policy' =>
      rw [hafter, SessionPolicy.level_some] at hle
      exact ⟨policy', rfl, by omega⟩
  features x hx hplain := by
    rw [mem_applyTo_features]
    refine .inl ⟨hx, fun hsession => ?_⟩
    have hnot : isSessionTag x = false := hplain
    rw [hnot] at hsession
    cases hsession

theorem enriches_applyAllTo (settings : Settings) (as : List ChainAnalysis)
    (r : EndpointRecord) : r.Enriches (applyAllTo settings as r) := by
  induction as generalizing r with
  | nil => exact .refl r
  | cons a as ih => exact (enriches_applyTo settings a r).trans (ih (a.applyTo settings r))

private theorem enriches_applyAll (settings : Settings) (as : List ChainAnalysis)
    (records : List EndpointRecord) :
    List.Forall₂ Enriches records (applyAll settings as records) := by
  rw [applyAll_eq_map, List.forall₂_map_right_iff, List.forall₂_same]
  intro r _
  exact enriches_applyAllTo settings as r

/-- Whatever configuration methods contain, records are changed by chains only. -/
theorem exists_applyAll_of_analyzeConfigs {cp : ClassPath} {settings : Settings}
    {configs : List ConfigMethod} {records enriched : List EndpointRecord}
    {memo memo' : Filter.Memo}
    (h : (analyzeConfigs cp settings configs records).run memo = (.ok enriched, memo')) :
    ∃ as, enriched = applyAll settings as records := by
  cases hrun : (configs.mapM (prepare cp settings)).run memo with
  | mk outcome between =>
    cases outcome with
    | ok analyses =>
      rw [analyzeConfigs, run_bind hrun] at h
      cases h
      exact ⟨_, rfl⟩
    | error e =>
      rw [analyzeConfigs, run_bind_error hrun] at h
      cases h

end ChainAnalysis

/-! ## Entries and groups -/

namespace Entry

/-- Where the endpoint is, who may call it and where it is declared. -/
def identity (e : Entry) : String × HttpVerb × String × Option String × Option String :=
  (e.path, e.verb, e.authExpression, e.declaringType, e.methodName)

end Entry

theorem EndpointRecord.Enriches.snapshot {r s : EndpointRecord} (h : r.Enriches s) :
    s.snapshot.identity = r.snapshot.identity := by
  have hid := h.identity
  simp only [EndpointRecord.identity, Prod.mk.injEq] at hid
  obtain ⟨hpath, hverb, hexpression, htype, hmethod⟩ := hid
  simp only [Entry.identity, EndpointRecord.snapshot, hpath, hverb, hexpression, htype, hmethod]

/-- Entries that agree in their identities are grouped alike. -/
theorem groupEntries_identities {entries others : List Entry}
    (h : entries.map Entry.identity = others.map Entry.identity) :
    ((groupEntries entries).map fun g => (g.authExpression, g.endpoints.map Entry.identity)) =
      (others.map (·.authExpression)).eraseDups.map fun expression =>
        (expression,
          (others.filter (·.authExpression == expression)).map Entry.identity) := by
  have hexpressions (es : List Entry) :
      es.map (·.authExpression) = (es.map Entry.identity).map (·.2.2.1) := by
    rw [List.map_map]
    rfl
  have hfilter (es : List Entry) (expression : String) :
      (es.filter (·.authExpression == expression)).map Entry.identity =
        (es.map Entry.identity).filter (·.2.2.1 == expression) := by
    rw [List.filter_map]
    rfl
  rw [groupEntries_eq, List.map_map, hexpressions entries, hexpressions others, h]
  apply List.map_congr_left
  intro expression _
  simp only [Function.comp_apply, groupOf, hfilter, h]

namespace Scan

open ChainAnalysis

private theorem eq_ofRecords_of_buildReport {now : Moment} {records : List EndpointRecord}
    {report : Report} (h : buildReport now records = .ok report) :
    report = Report.ofRecords now records := by
  rw [buildReport] at h
  cases hcheck : (Report.ofRecords now records).checkPartition records with
  | error e =>
    rw [hcheck] at h
    cases h
  | ok _ =>
    rw [hcheck] at h
    cases h
    rfl

theorem eq_ofRecords_of_finish {now : Moment} {records : List EndpointRecord}
    {progress : List String} {log : Log} {report : Report}
    (h : (finish now records progress log).result = .ok report) :
    report = Report.ofRecords now records := by
  unfold finish at h
  cases hbuild : buildReport now records with
  | error e => simp [hbuild] at h
  | ok built =>
    have hbuilt : built = report := by simpa [hbuild] using h
    rw [← hbuilt]
    exact eq_ofRecords_of_buildReport hbuild

/-- A scan that ends with a report has discovered all endpoints, and reports on them as chains have
left them. -/
theorem run_eq_ok {cp : ClassPath} {package : String} {settings : Settings} {now : Moment}
    {report : Report} (h : (run cp package settings now).result = .ok report) :
    (Discovery.endpoints cp package).error = none ∧
      ∃ as, report = Report.ofRecords now
        (applyAll settings as (Discovery.endpoints cp package).items) := by
  unfold run at h
  cases herror : (Discovery.configMethods cp package).error.or
      (Discovery.endpoints cp package).error with
  | some e => simp [herror] at h
  | none =>
    refine ⟨(Option.or_eq_none_iff.mp herror).2, ?_⟩
    simp only [herror] at h
    split at h
    · exact ⟨[], eq_ofRecords_of_finish h⟩
    · split at h
      · cases h
      · next hrun =>
        obtain ⟨as, rfl⟩ := exists_applyAll_of_analyzeConfigs hrun
        exact ⟨as, eq_ofRecords_of_finish h⟩

/-- **Analysis only adds.** Chains leave every record at its place, with its identity and all that
was known of it. So the groups of a report list the endpoints that discovery has found, in their
order, whatever the configuration methods contain. -/
theorem analysis_only_adds :
    (∀ (settings : Settings) (as : List ChainAnalysis) (records : List EndpointRecord),
      List.Forall₂ EndpointRecord.Enriches records (applyAll settings as records)) ∧
    ∀ (cp : ClassPath) (package : String) (settings : Settings) (now : Moment) (report : Report),
      (run cp package settings now).result = .ok report →
      (Discovery.endpoints cp package).error = none ∧
      let found := (Discovery.endpoints cp package).items.map EndpointRecord.snapshot
      (report.groups.map fun g => (g.authExpression, g.endpoints.map Entry.identity)) =
        (found.map (·.authExpression)).eraseDups.map fun expression =>
          (expression,
            (found.filter (·.authExpression == expression)).map Entry.identity) := by
  refine ⟨enriches_applyAll, ?_⟩
  intro cp package settings now report h
  obtain ⟨herror, as, rfl⟩ := run_eq_ok h
  refine ⟨herror, groupEntries_identities ?_⟩
  rw [applyAll_eq_map, List.map_map, List.map_map, List.map_map]
  apply List.map_congr_left
  intro r _
  exact (enriches_applyAllTo settings as r).snapshot

/-- A controller with three endpoints, of which the second has an expression of its own. The method
of the first also builds a chain that asks for basic authentication. -/
def apiClass : ClassLayout where
  minor := 0
  major := 61
  constants := [.utf8 "Api", .classRef 1, .utf8 "RuntimeVisibleAnnotations", .utf8 "Code",
    .utf8 "Lorg/springframework/stereotype/Controller;",
    .utf8 "Lorg/springframework/web/bind/annotation/GetMapping;", .utf8 "home",
    .utf8 "()Lorg/springframework/security/web/SecurityFilterChain;", .utf8 "HttpSecurity",
    .classRef 9, .utf8 "httpBasic", .utf8 "()V", .nameAndType 11 12, .methodRef 10 13,
    .utf8 "Lorg/springframework/web/bind/annotation/PostMapping;",
    .utf8 "Lorg/springframework/web/bind/annotation/DeleteMapping;",
    .utf8 "Lorg/springframework/security/access/prepost/PreAuthorize;", .utf8 "value",
    .utf8 "isAdmin()", .utf8 "save", .utf8 "drop"]
  access := 0x21
  name := ⟨2, "Api"⟩
  superName := none
  interfaces := []
  fields := []
  methods := [⟨1, ⟨7, "home"⟩, ⟨8, "()Lorg/springframework/security/web/SecurityFilterChain;"⟩,
    [annotated [⟨⟨6, "Lorg/springframework/web/bind/annotation/GetMapping;"⟩, []⟩],
      ⟨⟨4, "Code"⟩, .code ⟨0, 0, [0xB6, 0, 14, 0xB1], [], []⟩⟩]⟩,
    ⟨1, ⟨20, "save"⟩, ⟨12, "()V"⟩,
      [annotated [⟨⟨15, "Lorg/springframework/web/bind/annotation/PostMapping;"⟩, []⟩,
        ⟨⟨17, "Lorg/springframework/security/access/prepost/PreAuthorize;"⟩,
          [(⟨18, "value"⟩, .text ⟨19, "isAdmin()"⟩)]⟩]]⟩,
    ⟨1, ⟨21, "drop"⟩, ⟨12, "()V"⟩,
      [annotated [⟨⟨16, "Lorg/springframework/web/bind/annotation/DeleteMapping;"⟩, []⟩]]⟩]
  attributes := [annotated [⟨⟨5, "Lorg/springframework/stereotype/Controller;"⟩, []⟩]]
where
  annotated (annotations : List AnnotationLayout) : AttributeLayout :=
    ⟨⟨3, "RuntimeVisibleAnnotations"⟩, .annotations annotations⟩

def apiPath : ClassPath := ⟨[⟨"app", .folder [(["Api.class"], apiClass.encode)] []⟩]⟩

def noon : Moment := ⟨2026, 3, 1, 12, 0, 0, 0, some 0⟩

private theorem run_apiPath : ((run apiPath "" {} noon).result.toOption.map fun report =>
    report.groups.map fun g =>
      (g.authExpression, g.endpoints.map fun e => (e.verb, e.basicAuthRequired))) =
    some [("None", [(.get, true), (.delete, true)]), ("isAdmin()", [(.post, true)])] := by
  decide +kernel

theorem analysis_only_adds_apiPath : ∃ report, (run apiPath "" {} noon).result = .ok report ∧
    (report.groups.map fun g =>
        (g.authExpression, g.endpoints.map fun e => (e.verb, e.basicAuthRequired))) =
      [("None", [(.get, true), (.delete, true)]), ("isAdmin()", [(.post, true)])] ∧
    let found := (Discovery.endpoints apiPath "").items.map EndpointRecord.snapshot
    (report.groups.map fun g => (g.authExpression, g.endpoints.map Entry.identity)) =
      (found.map (·.authExpression)).eraseDups.map fun expression =>
        (expression,
          (found.filter (·.authExpression == expression)).map Entry.identity) := by
  obtain ⟨report, hresult, hreport⟩ := exists_ok_of_toOption run_apiPath
  exact ⟨report, hresult, hreport,
    (analysis_only_adds.2 apiPath "" {} noon report hresult).2⟩

end Scan

end EndpointAudit
