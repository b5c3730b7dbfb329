import EndpointAudit.Proofs.Chain.Classification
import EndpointAudit.Proofs.Naming
import EndpointAudit.Proofs.Scan.Workers

/-!
# Evidence of API keys

A chain that asks for an API key does so for every request or by a filter that it inserts. The
evidence of a filter is left out when the chain is merged into a record and has to come back when
the filter is: the filter is recognised by another test, it is among the inserted filters, and it
has been analysed.
-/

namespace EndpointAudit

namespace Filter

/-- A filter that the rules take for an API-key filter belongs to that family. -/
theorem familyOf_eq_apiKey {filterType : String}
    (h : Text.contains (Naming.simpleName filterType) "ApiKeyAuthFilter" = true) :
    familyOf filterType = .apiKey := by
  have hsegment : Text.contains (Text.afterLast '.' filterType) "ApiKeyAuthFilter" = true := by
    rw [Text.contains_iff] at h ⊢
    exact h.trans (Naming.simpleName_suffix filterType).isInfix
  have hwords := Naming.contains_squash hsegment
  have hkey : Text.contains (Naming.squash (Text.afterLast '.' filterType)) "apikey" = true := by
    rw [Text.contains_iff] at hwords ⊢
    have hpart : "apikey".toList <:+: (Naming.squash "ApiKeyAuthFilter").toList := by decide
    exact hpart.trans hwords
  rw [familyOf, hkey]
  rfl

end Filter

namespace Chain

/-- A chain that asks for an API key does so itself, or by a filter of that family. -/
theorem chainWide_or_filter_of_apiKey {trace : List Event}
    (h : (classify trace).apiKey = true) :
    (classify trace).chainWideApiKey = true ∨
      ∃ f ∈ (classify trace).filters, Filter.familyOf f = .apiKey := by
  obtain ⟨w, hw, rule, -, happlies, hrule⟩ := (classifyBy_apiKey Rule.all trace).mp h
  rcases hrule with rfl | rfl
  · left
    exact (classifyBy_chainWideApiKey Rule.all trace).mpr ⟨w, hw, _, by decide, happlies, rfl⟩
  · right
    obtain ⟨f, hf, hinsertion, hname⟩ := inserts_of_apiKeyFilter happlies
    refine ⟨f, ?_, Filter.familyOf_eq_apiKey hname⟩
    exact (mem_classifyBy_filters Rule.all trace f).mpr ⟨w, hw, _, by decide, hinsertion, rfl, hf⟩

end Chain

namespace ChainAnalysis

open EndpointAudit.Filter

variable {cp : ClassPath} {settings : Settings}

/-- The analysis of a method that can be traced covers every filter of its chain. -/
theorem prepare_run_covers (hcp : cp.Intact) {memo : Memo} (hmemo : memo.Faithful cp settings)
    {c : ConfigMethod} {trace : List Event}
    (htrace : cp.trace c.declaringType c.methodName c.descriptor settings.inlineLambdas =
      .ok trace) :
    ∃ a memo', (prepare cp settings c).run memo = (.ok (some a), memo') ∧
      a.classification = Chain.classify trace ∧
      ∀ f ∈ (Chain.classify trace).filters,
        ∃ found ∈ a.filters, IsCoverage cp settings f found := by
  obtain ⟨entries, hentries, hrun⟩ := prepare_run_of_trace hcp htrace
  refine ⟨_, _, hrun memo hmemo, rfl, fun f hf => ?_⟩
  have hlookup := Request.mem_lookups_of_covers (exists_isCoverage_of_mapM hentries)
    (show Request.Covers cp settings (.all (Chain.classify trace).filters) f from .root hf)
  obtain ⟨entry, hentry, hreading⟩ := exists_image_of_mapM_eq_ok hentries hlookup
  exact ⟨entry.2, List.mem_map_of_mem hentry, (reading_eq_ok_iff.mp hreading).2⟩

/-- The memory of a scan behind the given configuration methods. -/
def memoAfter (cp : ClassPath) (settings : Settings) (configs : List ConfigMethod) : Memo :=
  ((configs.mapM (prepare cp settings)).run {}).2

private theorem faithful_memoAfter (hcp : cp.Intact) (configs : List ConfigMethod) :
    (memoAfter cp settings configs).Faithful cp settings := by
  obtain ⟨memo, hrun, hmemo⟩ :=
    mapM_prepare_run hcp configs (Memo.faithful_empty cp settings)
  rw [memoAfter, hrun]
  exact hmemo.faithful

private theorem lastHeader?_ne_none (settings : Settings) {cs : List Coverage} {path : String}
    {c : Coverage} (hmem : c ∈ cs) (hc : c.Demands .apiKey path) :
    EndpointRecord.lastHeader? settings path cs ≠ none := by
  unfold EndpointRecord.lastHeader?
  rw [Ne, List.getLast?_eq_none_iff, List.filterMap_eq_nil_iff]
  intro hnone
  have hheader := hnone c hmem
  simp [EndpointRecord.demandedHeader?, hc] at hheader

/-- A record as an API-key filter of the analysis leaves it: asked for a key if the filter guards
its path, and marked as open if no path of the filter is known. -/
theorem applyTo_of_apiKeyFilter {a : ChainAnalysis} {c : Coverage} (hmem : c ∈ a.filters)
    (hfamily : familyOf c.filterType = .apiKey) (r : EndpointRecord) :
    (c.Guards r.path → (a.applyTo settings r).apiKeyRequired = true ∧
      (a.applyTo settings r).apiKeyHeader ≠ none) ∧
    (c.patterns = ∅ → apiKeyUnresolvedTag ∈ (a.applyTo settings r).features) := by
  refine ⟨fun hguards => ⟨?_, ?_⟩, fun hpatterns => ?_⟩
  · exact (applyTo_apiKeyRequired settings a r).mpr (.inr (.inr ⟨c, hmem, hfamily, hguards⟩))
  · rw [applyTo_apiKeyHeader]
    have hlast := lastHeader?_ne_none settings hmem ⟨hfamily, hguards⟩
    intro hnone
    exact hlast (Option.or_eq_none_iff.mp hnone).1
  · exact (mem_applyTo_features settings a r _).mpr
      (.inr (.inl (.inr ⟨c, hmem, .unresolved hfamily hpatterns⟩)))

/-- What a chain that has been read off a trace makes of a record: it adds to the record, and all
evidence of an API key shows. -/
structure KeepsEvidence (cp : ClassPath) (settings : Settings) (trace : List Event)
    (before after : EndpointRecord) : Prop where
  enriches : before.Enriches after
  chainWide : (Chain.classify trace).chainWideApiKey = true → after.apiKeyRequired = true
  filter : ∀ f ∈ (Chain.classify trace).filters, familyOf f = .apiKey →
    ∃ found, IsCoverage cp settings f found ∧
      (found.Guards before.path → after.apiKeyRequired = true ∧ after.apiKeyHeader ≠ none) ∧
      (found.patterns = ∅ → apiKeyUnresolvedTag ∈ after.features)

private theorem keepsEvidence_applyTo {a : ChainAnalysis} {trace : List Event}
    (hclass : a.classification = Chain.classify trace)
    (hcovered : ∀ f ∈ (Chain.classify trace).filters,
      ∃ found ∈ a.filters, IsCoverage cp settings f found) (r : EndpointRecord) :
    KeepsEvidence cp settings trace r (a.applyTo settings r) where
  enriches := enriches_applyTo settings a r
  chainWide hwide := by
    rw [applyTo_apiKeyRequired, hclass]
    exact .inr (.inl hwide)
  filter f hf hfamily := by
    obtain ⟨found, hmem, hfound⟩ := hcovered f hf
    rw [← hfound.filterType_eq] at hfamily
    exact ⟨found, hfound, applyTo_of_apiKeyFilter hmem hfamily r⟩

/-- **No evidence of an API key is lost** on the way from the trace of a configuration method to
the records, whatever the scan has looked at before. -/
theorem apiKey_evidence_kept {trace : List Event} (hkey : (Chain.classify trace).apiKey = true) :
    ((Chain.classify trace).chainWideApiKey = true ∨
      ∃ f ∈ (Chain.classify trace).filters, familyOf f = .apiKey) ∧
    ∀ (cp : ClassPath) (settings : Settings) (earlier : List ConfigMethod) (c : ConfigMethod),
      cp.Intact →
      cp.trace c.declaringType c.methodName c.descriptor settings.inlineLambdas = .ok trace →
      ∃ a memo,
        (prepare cp settings c).run (memoAfter cp settings earlier) = (.ok (some a), memo) ∧
        ∀ records, List.Forall₂ (KeepsEvidence cp settings trace) records
          (a.apply settings records).1 := by
  refine ⟨Chain.chainWide_or_filter_of_apiKey hkey, ?_⟩
  intro cp settings earlier c hcp htrace
  obtain ⟨a, memo, hrun, hclass, hcovered⟩ :=
    prepare_run_covers hcp (faithful_memoAfter hcp earlier) htrace
  refine ⟨a, memo, hrun, fun records => ?_⟩
  rw [apply_fst, List.forall₂_map_right_iff, List.forall₂_same]
  intro r _
  exact keepsEvidence_applyTo hclass hcovered r

/-- A configuration class whose only method adds two API-key filters to the chain. -/
def keyedConfig : ClassLayout where
  minor := 0
  major := 61
  constants := [.utf8 "Sec", .classRef 1, .utf8 "chain", .utf8 "()V", .utf8 "Code",
    .utf8 "HttpSecurity", .classRef 6, .utf8 "addFilter", .utf8 "(Lx/ApiKeyAuthFilter;)V",
    .nameAndType 8 9, .methodRef 7 10, .utf8 "(Ly/ApiKeyAuthFilter;)V", .nameAndType 8 12,
    .methodRef 7 13]
  access := 0x21
  name := ⟨2, "Sec"⟩
  superName := none
  interfaces := []
  fields := []
  methods := [⟨1, ⟨3, "chain"⟩, ⟨4, "()V"⟩,
    [⟨⟨5, "Code"⟩, .code ⟨0, 0, [0xB6, 0, 11, 0xB6, 0, 14, 0xB1], [], []⟩⟩]⟩]
  attributes := []

/-- A filter that compares the path of the request with `/admin`. -/
def adminFilter : ClassLayout where
  minor := 0
  major := 61
  constants := [.utf8 "x/ApiKeyAuthFilter", .classRef 1, .utf8 "Code", .utf8 "doFilter",
    .utf8 "()V", .utf8 "getRequestURI", .nameAndType 6 5, .methodRef 2 7, .utf8 "/admin",
    .string 9, .utf8 "equals", .nameAndType 11 5, .methodRef 2 12]
  access := 0x21
  name := ⟨2, "x/ApiKeyAuthFilter"⟩
  superName := none
  interfaces := []
  fields := []
  methods := [⟨1, ⟨4, "doFilter"⟩, ⟨5, "()V"⟩,
    [⟨⟨3, "Code"⟩, .code ⟨0, 0, [0xB6, 0, 8, 0x12, 10, 0xB6, 0, 13, 0xB1], [], []⟩⟩]⟩]
  attributes := []

/-- Of the two filters that the chain adds, the second one is missing. -/
def keyedPath : ClassPath :=
  ⟨[⟨"classes", .folder [(["Sec.class"], keyedConfig.encode),
    (["x", "ApiKeyAuthFilter.class"], adminFilter.encode)] []⟩]⟩

def keyedTrace : List Event :=
  [.call ⟨"HttpSecurity", "addFilter", "(Lx/ApiKeyAuthFilter;)V"⟩,
    .call ⟨"HttpSecurity", "addFilter", "(Ly/ApiKeyAuthFilter;)V"⟩]

def keyedRecords : List EndpointRecord := [{ path := "/admin" }, { path := "/home" }]

/-- What a record tells about API keys: whether one is required, in which header, and whether one
may be required on an unknown path. -/
def keyEvidence (r : EndpointRecord) : String × Bool × Option String × Bool :=
  (r.path, r.apiKeyRequired, r.apiKeyHeader, decide (apiKeyUnresolvedTag ∈ r.features))

theorem trace_keyedPath : keyedPath.trace "Sec" "chain" none true = .ok keyedTrace := by
  apply eq_ok_of_toOption
  decide +kernel

private theorem keyEvidence_keyedPath :
    (((prepare keyedPath {} ⟨"Sec", "chain", none⟩).run
        (memoAfter keyedPath {} [])).1.toOption.join.map fun a =>
          (a.apply {} keyedRecords).1.map keyEvidence) =
      some [("/admin", true, some "X-API-KEY", true), ("/home", false, none, true)] := by
  decide +kernel

theorem apiKey_evidence_kept_keyedPath :
    (Chain.classify keyedTrace).apiKey = true ∧ keyedPath.Intact ∧
    keyedPath.trace "Sec" "chain" none true = .ok keyedTrace ∧
    ∃ a memo, (prepare keyedPath {} ⟨"Sec", "chain", none⟩).run (memoAfter keyedPath {} []) =
        (.ok (some a), memo) ∧
      List.Forall₂ (KeepsEvidence keyedPath {} keyedTrace) keyedRecords
        (a.apply {} keyedRecords).1 ∧
      (a.apply {} keyedRecords).1.map keyEvidence =
        [("/admin", true, some "X-API-KEY", true), ("/home", false, none, true)] := by
  have hkey : (Chain.classify keyedTrace).apiKey = true := by decide +kernel
  have hintact : keyedPath.Intact := by decide +kernel
  refine ⟨hkey, hintact, trace_keyedPath, ?_⟩
  obtain ⟨a, memo, hrun, hrecords⟩ := (apiKey_evidence_kept hkey).2 keyedPath {} []
    ⟨"Sec", "chain", none⟩ hintact trace_keyedPath
  have hevidence := keyEvidence_keyedPath
  rw [hrun] at hevidence
  refine ⟨a, memo, hrun, hrecords keyedRecords, ?_⟩
  simpa [Except.toOption] using hevidence

end ChainAnalysis

end EndpointAudit
