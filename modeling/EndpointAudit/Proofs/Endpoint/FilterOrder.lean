import EndpointAudit.Proofs.Endpoint.MergeRun
import Mathlib.Data.List.Perm.Basic

/-!
# The order of filters

Filters that guard an endpoint set flags and leave tags, which come out the same in any order. Only
the header of the API key is overwritten: it is that of the last filter that asks for a key, so the
order counts there and nowhere else.
-/

namespace EndpointAudit.EndpointRecord

open EndpointAudit.Filter

/-- The header of an endpoint behind filters in the given order: that of the last one that asks for
an API key there, or the one known before if none does. -/
def headerBehind (settings : Settings) (cs : List Coverage) (r : EndpointRecord) : Option String :=
  match (cs.filter fun c => decide (c.Demands .apiKey r.path)).getLast? with
  | some c => some (c.headerOr settings.apiKeyHeader)
  | none => r.apiKeyHeader

/-- Two records agree in every field but the header of the API key. -/
def SameButHeader (r s : EndpointRecord) : Prop :=
  { r with apiKeyHeader := none } = { s with apiKeyHeader := none }

private theorem SameButHeader.eq {r s : EndpointRecord} (h : SameButHeader r s)
    (hheader : r.apiKeyHeader = s.apiKeyHeader) : r = s := by
  cases r
  cases s
  simp_all [SameButHeader]

variable (settings : Settings)

/-! ## Counting matches -/

private theorem FilterStep.matches_eq {settings : Settings} {c : Coverage} {r : EndpointRecord}
    {s : EndpointRecord × Bool} (h : FilterStep settings c r s) :
    s.2 = decide (c.Guards r.path) := by
  cases h with
  | unresolved _ hp => simp [Coverage.not_guards_of_patterns_eq hp]
  | idle _ hg => simp [hg]
  | apiKey _ hg | basic _ hg | tagOnly _ _ hg => simp [hg]

private theorem applyFilters_snd (cs : List Coverage) (r : EndpointRecord) :
    (r.applyFilters settings cs).2 = cs.countP fun c => decide (c.Guards r.path) := by
  induction cs generalizing r with
  | nil => rfl
  | cons c cs ih =>
    have hstep := applyFilter_step settings c r
    rw [applyFilters_cons_eq, ih, path_eq_of_identity hstep.identity, hstep.matches_eq,
      List.countP_cons, Nat.add_comm]

theorem correlate_fst (cs : List Coverage) (rs : List EndpointRecord) :
    (correlate settings cs rs).1 = rs.map fun r => (r.applyFilters settings cs).1 := by
  simp [correlate, Function.comp_def]

/-- Every pair of an endpoint and a filter that guards it counts once. -/
theorem correlate_snd (cs : List Coverage) (rs : List EndpointRecord) :
    (correlate settings cs rs).2 =
      (rs.product cs).countP fun (r, c) => decide (c.Guards r.path) := by
  have hfold : ∀ n, (rs.map (·.applyFilters settings cs)).foldl (fun total r => total + r.2) n =
      n + (rs.product cs).countP fun (r, c) => decide (c.Guards r.path) := by
    induction rs with
    | nil => simp [List.product]
    | cons r rs ih =>
      intro n
      rw [List.map_cons, List.foldl_cons, ih, applyFilters_snd]
      simp [List.product, List.countP_map, Function.comp_def, Nat.add_assoc]
  simpa [correlate] using hfold 0

/-! ## One endpoint -/

theorem applyFilters_header (cs : List Coverage) (r : EndpointRecord) :
    (r.applyFilters settings cs).1.apiKeyHeader = headerBehind settings cs r := by
  rw [applyFilters_apiKeyHeader, ChainAnalysis.lastHeader?_eq, headerBehind]
  cases (cs.filter fun c => decide (c.Demands .apiKey r.path)).getLast? <;> rfl

variable {cs ds : List Coverage}

theorem applyFilters_sameButHeader (hperm : cs.Perm ds) (r : EndpointRecord) :
    SameButHeader (r.applyFilters settings cs).1 (r.applyFilters settings ds).1 := by
  apply eq_of_fields
  · exact (applyFilters_identity settings cs r).trans (applyFilters_identity settings ds r).symm
  · simp only [applyFilters_apiKeyRequired, hperm.mem_iff]
  · rfl
  · simp only [applyFilters_basicAuthRequired, hperm.mem_iff]
  · exact (applyFilters_sessionPolicy settings cs r).trans
      (applyFilters_sessionPolicy settings ds r).symm
  · intro x
    simp only [mem_applyFilters_features, hperm.mem_iff]

private theorem headerBehind_eq_of_perm (hperm : cs.Perm ds) {r : EndpointRecord}
    (hagree : ∀ c ∈ cs, ∀ d ∈ cs, c.Demands .apiKey r.path → d.Demands .apiKey r.path →
      c.headerOr settings.apiKeyHeader = d.headerOr settings.apiKeyHeader) :
    headerBehind settings ds r = headerBehind settings cs r := by
  have hfilter := hperm.filter fun c => decide (c.Demands .apiKey r.path)
  have hlast : ∀ {es : List Coverage} {c : Coverage},
      (es.filter fun c => decide (c.Demands .apiKey r.path)).getLast? = some c →
        c ∈ es ∧ c.Demands .apiKey r.path := by
    intro es c h
    simpa using List.mem_of_getLast? h
  unfold headerBehind
  cases hc : (cs.filter fun c => decide (c.Demands .apiKey r.path)).getLast? with
  | none =>
    rw [List.getLast?_eq_none_iff.mp hc] at hfilter
    rw [hfilter.nil_eq.symm]
    rfl
  | some c =>
    cases hd : (ds.filter fun c => decide (c.Demands .apiKey r.path)).getLast? with
    | none =>
      rw [List.getLast?_eq_none_iff.mp hd] at hfilter
      rw [hfilter.eq_nil] at hc
      cases hc
    | some d =>
      obtain ⟨hcmem, hcdemands⟩ := hlast hc
      obtain ⟨hdmem, hddemands⟩ := hlast hd
      exact congrArg some (hagree d (hperm.mem_iff.mpr hdmem) c hcmem hddemands hcdemands)

/-! ## All endpoints -/

/-- **The order of filters counts for the header only.** The number of matches and all other fields
are the same in any order, and so is the header where the filters that ask for a key agree on it. -/
theorem correlate_perm (hperm : cs.Perm ds) (rs : List EndpointRecord) :
    (correlate settings cs rs).2 =
      ((rs.product cs).countP fun (r, c) => decide (c.Guards r.path)) ∧
    (correlate settings ds rs).2 = (correlate settings cs rs).2 ∧
    List.Forall₂ SameButHeader (correlate settings cs rs).1 (correlate settings ds rs).1 ∧
    (∀ order, (correlate settings order rs).1.map (·.apiKeyHeader) =
      rs.map (headerBehind settings order)) ∧
    ((∀ r ∈ rs, ∀ c ∈ cs, ∀ d ∈ cs, c.Demands .apiKey r.path → d.Demands .apiKey r.path →
        c.headerOr settings.apiKeyHeader = d.headerOr settings.apiKeyHeader) →
      correlate settings ds rs = correlate settings cs rs) := by
  have hcount : (correlate settings ds rs).2 = (correlate settings cs rs).2 := by
    rw [correlate_snd, correlate_snd]
    exact (hperm.symm.product_left rs).countP_eq _
  refine ⟨correlate_snd settings cs rs, hcount, ?_, ?_, ?_⟩
  · rw [correlate_fst, correlate_fst, List.forall₂_map_left_iff, List.forall₂_map_right_iff,
      List.forall₂_same]
    intro r _
    exact applyFilters_sameButHeader settings hperm r
  · intro order
    rw [correlate_fst, List.map_map]
    apply List.map_congr_left
    intro r _
    exact applyFilters_header settings order r
  · intro hagree
    refine Prod.ext ?_ hcount
    rw [correlate_fst, correlate_fst]
    apply List.map_congr_left
    intro r hr
    apply (applyFilters_sameButHeader settings hperm.symm r).eq
    rw [applyFilters_header, applyFilters_header]
    exact headerBehind_eq_of_perm settings hperm (hagree r hr)

/-- Two filters that ask for a key at different paths, and one that guards every path. -/
def guardingFilters : List Coverage :=
  [{ filterType := "x.ApiKeyAuthFilter", patterns := TagSet.ofList ["/api/**"]
     header := some "X-Client" },
    { filterType := "x.TokenAuthFilter", patterns := TagSet.ofList ["/admin"] },
    { filterType := "x.BasicAuthFilter", patterns := TagSet.ofList ["*"] }]

theorem correlate_perm_guardingFilters :
    guardingFilters.Perm guardingFilters.reverse ∧
    correlate {} guardingFilters.reverse [{ path := "/api/users" }, { path := "/admin" }] =
      correlate {} guardingFilters [{ path := "/api/users" }, { path := "/admin" }] ∧
    (correlate {} guardingFilters [{ path := "/api/users" }, { path := "/admin" }]).2 = 4 := by
  have hperm : guardingFilters.Perm guardingFilters.reverse :=
    (List.reverse_perm guardingFilters).symm
  obtain ⟨hmatches, -, -, -, hsame⟩ :=
    correlate_perm {} hperm [{ path := "/api/users" }, { path := "/admin" }]
  refine ⟨hperm, hsame ?_, hmatches.trans ?_⟩
  · decide +kernel
  · decide +kernel

-- Where two filters ask for different headers the last one has its way.
example :
    let client : Coverage := { filterType := "x.ApiKeyAuthFilter", patterns := TagSet.ofList ["*"]
                               header := some "X-Client" }
    let token : Coverage := { filterType := "x.TokenAuthFilter", patterns := TagSet.ofList ["*"] }
    let headers (cs : List Coverage) := (correlate {} cs [{ path := "/" }]).1.map (·.apiKeyHeader)
    headers [client, token] = [some "X-API-KEY"] ∧ headers [token, client] = [some "X-Client"] := by
  decide +kernel

end EndpointAudit.EndpointRecord
