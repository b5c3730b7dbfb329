import EndpointAudit.Proofs.Filter.Requests
import EndpointAudit.Proofs.Scan.Frame

/-!
# Configuration methods that cannot be analysed

A configuration method that cannot be traced is passed over with a notice. It is found out to be
such before anything has been done for it, so records and memory are what they would be if the
method were not there.
-/

namespace EndpointAudit

/-- Whether a notice is about a filter. -/
def Notice.isOnFilter : Notice → Bool
  | .filterUnavailable _ _ => true
  | _ => false

namespace ChainAnalysis

open EndpointAudit.Filter

/-- Whether the method can be traced. -/
def isTraceable (cp : ClassPath) (settings : Settings) (c : ConfigMethod) : Bool :=
  (cp.trace c.declaringType c.methodName c.descriptor settings.inlineLambdas).toOption.isSome

/-- The second memory is the first one without the notices on configuration methods. -/
structure Quieter (memo memo' : Memo) : Prop where
  known : memo'.known = memo.known
  notices : memo'.notices = memo.notices.filter Notice.isOnFilter
  remarks : memo'.remarks = memo.remarks

variable {cp : ClassPath} {settings : Settings}

theorem Quieter.faithful {memo memo' : Memo} (h : Quieter memo memo')
    (hmemo : memo.Faithful cp settings) : memo'.Faithful cp settings := by
  intro e he
  rw [h.known] at he
  exact hmemo e he

private theorem isOnFilter_of_analyze {filterType : String} {found : Coverage} {told : List Notice}
    (h : analyze cp settings filterType = .ok (found, told)) :
    (Log.ofNotices told).notices.filter Notice.isOnFilter = (Log.ofNotices told).notices := by
  rw [(told_of_analyze h).1, warning?]
  split <;> rfl

theorem Quieter.learn {memo memo' : Memo} (h : Quieter memo memo') (filterType : String) :
    Quieter (memo.learn cp settings filterType) (memo'.learn cp settings filterType) := by
  cases hknown : Assoc.hasKey filterType memo.known with
  | true =>
    have hknown' : Assoc.hasKey filterType memo'.known = true := h.known ▸ hknown
    rwa [Memo.learn_of_hasKey hknown, Memo.learn_of_hasKey hknown']
  | false =>
    have hknown' : Assoc.hasKey filterType memo'.known = false := h.known ▸ hknown
    cases hfound : analyze cp settings filterType with
    | error e => rwa [Memo.learn_of_error hfound, Memo.learn_of_error hfound]
    | ok result =>
      rw [Memo.learn_of_ok hknown hfound, Memo.learn_of_ok hknown' hfound]
      constructor
      · rw [Memo.add_known, Memo.add_known, h.known]
      · rw [Memo.add_toLog, Memo.add_toLog, Log.append_notices, Log.append_notices,
          List.filter_append, isOnFilter_of_analyze hfound, h.notices]
      · rw [Memo.add_toLog, Memo.add_toLog, Log.append_remarks, Log.append_remarks, h.remarks]

theorem Quieter.foldl_learn {memo memo' : Memo} (h : Quieter memo memo') (ts : List String) :
    Quieter (ts.foldl (Memo.learn cp settings) memo) (ts.foldl (Memo.learn cp settings) memo') := by
  induction ts generalizing memo memo' with
  | nil => exact h
  | cons t ts ih => exact ih (h.learn t)

/-! ## One configuration method -/

/-- The remark on a method that can be traced. -/
def remarkOn (c : ConfigMethod) (trace : List Event) : Notice :=
  .chainClassified c.name (Chain.classify trace).features.toList

private theorem Quieter.tell_remarkOn {memo memo' : Memo} (h : Quieter memo memo')
    (c : ConfigMethod) (trace : List Event) :
    Quieter (memo.tell [remarkOn c trace]) (memo'.tell [remarkOn c trace]) where
  known := h.known
  notices := by simpa [Memo.tell, Log.ofNotices, remarkOn, Notice.severity] using h.notices
  remarks := by simp [Memo.tell, h.remarks]

private theorem Quieter.tell_unavailable {memo memo' : Memo} (h : Quieter memo memo')
    (c : ConfigMethod) (reason : Unavailable) :
    Quieter (memo.tell [.configUnavailable c.name reason]) memo' where
  known := h.known
  notices := by
    simpa [Memo.tell, Log.ofNotices, Notice.severity, Notice.isOnFilter] using h.notices
  remarks := by simpa [Memo.tell, Log.ofNotices, Notice.severity] using h.remarks

/-- What a method that can be traced contributes is the same from every faithful memory. -/
theorem prepare_run_of_trace (hcp : cp.Intact) {c : ConfigMethod} {trace : List Event}
    (htrace : cp.trace c.declaringType c.methodName c.descriptor settings.inlineLambdas =
      .ok trace) :
    let ts := (Request.all (Chain.classify trace).filters).lookups cp settings
    ∃ entries, ts.mapM (reading cp settings) = .ok entries ∧
      ∀ memo : Memo, memo.Faithful cp settings → (prepare cp settings c).run memo =
        (.ok (some ⟨Chain.classify trace, entries.map (·.2)⟩),
          ts.foldl (Memo.learn cp settings) (memo.tell [remarkOn c trace])) := by
  intro ts
  have hclass : classification? cp settings c = .ok (.ok (Chain.classify trace)) := by
    rw [classification?, htrace]
  obtain ⟨entries, hentries⟩ := mapM_reading_eq_ok hcp settings ts
  refine ⟨entries, hentries, ?_⟩
  intro memo hmemo
  have hrun := (Request.all (Chain.classify trace).filters).answer_run_eq
    (hmemo.tell [remarkOn c trace])
  rw [hentries] at hrun
  rw [prepare, hclass]
  exact run_bind hrun

theorem prepare_run_of_unavailable {c : ConfigMethod} {reason : Unavailable}
    (htrace : cp.trace c.declaringType c.methodName c.descriptor settings.inlineLambdas =
      .error (.unavailable reason)) (memo : Memo) :
    (prepare cp settings c).run memo =
      (.ok none, memo.tell [.configUnavailable c.name reason]) := by
  have hclass : classification? cp settings c =
      .ok (.error (.configUnavailable c.name reason)) := by
    rw [classification?, htrace]
  rw [prepare, hclass]
  rfl

theorem trace_of_isTraceable {c : ConfigMethod} (h : isTraceable cp settings c = true) :
    ∃ trace, cp.trace c.declaringType c.methodName c.descriptor settings.inlineLambdas =
      .ok trace := by
  unfold isTraceable at h
  cases htrace : cp.trace c.declaringType c.methodName c.descriptor settings.inlineLambdas with
  | ok trace => exact ⟨trace, rfl⟩
  | error e =>
    rw [htrace] at h
    cases h

theorem trace_of_not_isTraceable (hcp : cp.Intact) {c : ConfigMethod}
    (h : isTraceable cp settings c = false) :
    ∃ reason, cp.trace c.declaringType c.methodName c.descriptor settings.inlineLambdas =
      .error (.unavailable reason) := by
  unfold isTraceable at h
  have hfatal := hcp.trace_ne_fatal c.declaringType c.methodName c.descriptor
    settings.inlineLambdas
  cases htrace : cp.trace c.declaringType c.methodName c.descriptor settings.inlineLambdas with
  | ok trace =>
    rw [htrace] at h
    cases h
  | error e =>
    cases e with
    | fatal e => exact absurd htrace (hfatal e)
    | unavailable reason => exact ⟨reason, rfl⟩

/-! ## All configuration methods -/

private theorem mapM_prepare_run_filter (hcp : cp.Intact) (configs : List ConfigMethod)
    {memo memo' : Memo} (hmemo : memo.Faithful cp settings) (h : Quieter memo memo') :
    ∃ prepared kept last last',
      (configs.mapM (prepare cp settings)).run memo = (.ok prepared, last) ∧
      ((configs.filter (isTraceable cp settings)).mapM (prepare cp settings)).run memo' =
        (.ok kept, last') ∧
      prepared.filterMap id = kept.filterMap id ∧ Quieter last last' := by
  induction configs generalizing memo memo' with
  | nil => exact ⟨[], [], memo, memo', rfl, rfl, rfl, h⟩
  | cons c configs ih =>
    cases hc : isTraceable cp settings c with
    | true =>
      obtain ⟨trace, htrace⟩ := trace_of_isTraceable hc
      obtain ⟨entries, -, hrun⟩ := prepare_run_of_trace hcp htrace
      obtain ⟨prepared, kept, last, last', hall, hkept, hsame, hlast⟩ :=
        ih ((hmemo.tell _).foldl_learn _) ((h.tell_remarkOn c trace).foldl_learn _)
      let a : ChainAnalysis := ⟨Chain.classify trace, entries.map (·.2)⟩
      refine ⟨some a :: prepared, some a :: kept, last, last', ?_, ?_, ?_, hlast⟩
      · rw [List.mapM_cons, run_bind (hrun memo hmemo), run_bind hall]
        rfl
      · rw [List.filter_cons_of_pos hc, List.mapM_cons, run_bind (hrun memo' (h.faithful hmemo)),
          run_bind hkept]
        rfl
      · simpa using hsame
    | false =>
      obtain ⟨reason, htrace⟩ := trace_of_not_isTraceable hcp hc
      have hrun := prepare_run_of_unavailable htrace memo
      obtain ⟨prepared, kept, last, last', hall, hkept, hsame, hlast⟩ :=
        ih (hmemo.tell _) (h.tell_unavailable c reason)
      refine ⟨none :: prepared, kept, last, last', ?_, ?_, ?_, hlast⟩
      · rw [List.mapM_cons, run_bind hrun, run_bind hall]
        rfl
      · rwa [List.filter_cons_of_neg (by simp [hc])]
      · simpa using hsame

/-- **Methods that cannot be analysed do not interfere.** If all archives can be opened, the
analysis of configuration methods comes to an end, whatever the classes contain. Leaving out the
methods that cannot be traced changes neither a record nor what is known of filters, only the
notices on these methods are gone. -/
theorem untraceable_configs_ignored {cp : ClassPath} (hcp : cp.Intact) (settings : Settings)
    (configs : List ConfigMethod) (records : List EndpointRecord) :
    ∃ enriched memo memo',
      (analyzeConfigs cp settings configs records).run {} = (.ok enriched, memo) ∧
      (analyzeConfigs cp settings (configs.filter (isTraceable cp settings)) records).run {} =
        (.ok enriched, memo') ∧
      memo'.known = memo.known ∧ memo'.notices = memo.notices.filter Notice.isOnFilter ∧
      memo'.remarks = memo.remarks := by
  have hstart : Quieter {} {} := ⟨rfl, rfl, rfl⟩
  obtain ⟨prepared, kept, memo, memo', hall, hkept, hsame, hlast⟩ :=
    mapM_prepare_run_filter hcp configs (Memo.faithful_empty cp settings) hstart
  refine ⟨applyAll settings (prepared.filterMap id) records, memo, memo', ?_, ?_, hlast.known,
    hlast.notices, hlast.remarks⟩
  · rw [analyzeConfigs, run_bind hall]
    rfl
  · rw [analyzeConfigs, run_bind hkept, hsame]
    rfl

/-- A method whose class is missing, one that builds a chain, and one that its class does not
have. -/
def apiConfigs : List ConfigMethod :=
  [⟨"Gone", "chain", none⟩, ⟨"Api", "home", none⟩, ⟨"Api", "chain", none⟩]

private theorem traceable_apiConfigs :
    apiConfigs.filter (isTraceable Scan.apiPath {}) = [⟨"Api", "home", none⟩] := by
  decide +kernel

theorem untraceable_configs_ignored_apiPath :
    Scan.apiPath.Intact ∧ ∃ enriched memo memo',
      (analyzeConfigs Scan.apiPath {} apiConfigs [{ path := "/" }]).run {} =
        (.ok enriched, memo) ∧
      (analyzeConfigs Scan.apiPath {} [⟨"Api", "home", none⟩] [{ path := "/" }]).run {} =
        (.ok enriched, memo') ∧
      memo'.known = memo.known ∧ memo'.notices = memo.notices.filter Notice.isOnFilter ∧
      memo'.remarks = memo.remarks := by
  have hintact : Scan.apiPath.Intact := by decide +kernel
  have hignored := untraceable_configs_ignored hintact {} apiConfigs [{ path := "/" }]
  rw [traceable_apiConfigs] at hignored
  exact ⟨hintact, hignored⟩

end ChainAnalysis

end EndpointAudit
