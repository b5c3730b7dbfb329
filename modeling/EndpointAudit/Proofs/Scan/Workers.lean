import EndpointAudit.Proofs.Scan.Configurations

/-!
# Workers

Configuration methods are prepared by workers that share one memory of filters, and the chains are
merged into the records in the order of discovery once all of them are ready. So it does not matter
in which order the workers come to the methods: the records are the same, and so are the filters
that have been analysed.
-/

namespace EndpointAudit.ChainAnalysis

open EndpointAudit.Filter

section Definitions

variable (cp : ClassPath) (settings : Settings)

/-- The analysis of a configuration method as from an empty memory. -/
def preparedAlone (c : ConfigMethod) : Option ChainAnalysis :=
  ((prepare cp settings c).run {}).1.toOption.join

/-- The filter types that are analysed for a configuration method. -/
def typesFor (c : ConfigMethod) : List String :=
  ((prepare cp settings c).run {}).2.types

/-- Endpoint records after workers have prepared configuration methods in the first order and the
chains have been merged in the second one. -/
def analyzeByWorkers (order configs : List ConfigMethod) (records : List EndpointRecord) :
    Analysis (List EndpointRecord) := do
  let ready := order.zip (← order.mapM (prepare cp settings))
  return applyAll settings (configs.filterMap fun c => (ready.lookup c).join) records

end Definitions

variable {cp : ClassPath} {settings : Settings}

/-- Preparing a method tells something and asks for filter types, whatever is known already. -/
theorem prepare_run_eq (hcp : cp.Intact) (settings : Settings) (c : ConfigMethod) :
    ∃ (prepared : Option ChainAnalysis) (told : List Notice) (ts : List String),
      ∀ memo : Memo, memo.Faithful cp settings → (prepare cp settings c).run memo =
        (.ok prepared, ts.foldl (Memo.learn cp settings) (memo.tell told)) := by
  cases hc : isTraceable cp settings c with
  | true =>
    obtain ⟨trace, htrace⟩ := trace_of_isTraceable hc
    obtain ⟨entries, -, hrun⟩ := prepare_run_of_trace hcp htrace
    exact ⟨_, _, _, hrun⟩
  | false =>
    obtain ⟨reason, htrace⟩ := trace_of_not_isTraceable hcp hc
    exact ⟨none, _, [], fun memo _ => prepare_run_of_unavailable htrace memo⟩

/-- What a memory has become by preparing some methods. -/
structure ExtendedBy (cp : ClassPath) (settings : Settings) (configs : List ConfigMethod)
    (memo memo' : Memo) : Prop where
  faithful : memo'.Faithful cp settings
  nodup : memo.types.Nodup → memo'.types.Nodup
  mem_types : ∀ t, t ∈ memo'.types ↔
    t ∈ memo.types ∨ ∃ c ∈ configs, t ∈ typesFor cp settings c

private theorem prepare_run_alone (hcp : cp.Intact) {memo : Memo}
    (hmemo : memo.Faithful cp settings) (c : ConfigMethod) :
    ∃ memo', (prepare cp settings c).run memo = (.ok (preparedAlone cp settings c), memo') ∧
      ExtendedBy cp settings [c] memo memo' := by
  obtain ⟨prepared, told, ts, hrun⟩ := prepare_run_eq hcp settings c
  have hempty := hrun {} (Memo.faithful_empty cp settings)
  have hprepared : preparedAlone cp settings c = prepared := by
    rw [preparedAlone, hempty]
    rfl
  have htypes (t : String) : t ∈ typesFor cp settings c ↔
      t ∈ ts ∧ ∃ found, IsCoverage cp settings t found := by
    have hnone : t ∉ (Memo.tell {} told).types := by simp [Memo.types]
    rw [typesFor, hempty, Memo.mem_types_foldl_learn]
    exact or_iff_right hnone
  refine ⟨_, hprepared ▸ hrun memo hmemo, (hmemo.tell told).foldl_learn ts, ?_, ?_⟩
  · intro hnodup
    have htold : (memo.tell told).types.Nodup := hnodup
    exact Memo.nodup_types_foldl_learn htold ts
  · intro t
    rw [Memo.mem_types_foldl_learn]
    simp [htypes, Memo.types]

theorem mapM_prepare_run (hcp : cp.Intact) (configs : List ConfigMethod) {memo : Memo}
    (hmemo : memo.Faithful cp settings) :
    ∃ memo', (configs.mapM (prepare cp settings)).run memo =
        (.ok (configs.map (preparedAlone cp settings)), memo') ∧
      ExtendedBy cp settings configs memo memo' := by
  induction configs generalizing memo with
  | nil => exact ⟨memo, rfl, hmemo, id, by simp⟩
  | cons c configs ih =>
    obtain ⟨between, hfirst, hbetween⟩ := prepare_run_alone hcp hmemo c
    obtain ⟨last, hrest, hlast⟩ := ih hbetween.faithful
    refine ⟨last, ?_, hlast.faithful, hlast.nodup ∘ hbetween.nodup, fun t => ?_⟩
    · rw [List.mapM_cons, run_bind hfirst, run_bind hrest]
      rfl
    · rw [hlast.mem_types, hbetween.mem_types]
      simp [or_assoc]

private theorem lookup_zip_map {α : Type} (f : ConfigMethod → α) {c : ConfigMethod}
    {order : List ConfigMethod} (h : c ∈ order) :
    (order.zip (order.map f)).lookup c = some (f c) := by
  induction order with
  | nil => cases h
  | cons first rest ih =>
    rw [List.map_cons, List.zip_cons_cons]
    by_cases hc : c = first
    · rw [hc, List.lookup_cons_self]
    · have hrest := (List.mem_cons.mp h).resolve_left hc
      rw [List.lookup_cons, beq_false_of_ne hc, ih hrest]

/-- **The order of the workers does not matter.** Records come out as if the methods were prepared
in the order of discovery, and the same filter types have been analysed. -/
theorem analyzeByWorkers_run (hcp : cp.Intact) (settings : Settings)
    {order configs : List ConfigMethod} (horder : order.Perm configs)
    (records : List EndpointRecord) :
    ∃ enriched memo memo',
      (analyzeConfigs cp settings configs records).run {} = (.ok enriched, memo) ∧
      (analyzeByWorkers cp settings order configs records).run {} = (.ok enriched, memo') ∧
      memo'.types.Perm memo.types := by
  have hempty := Memo.faithful_empty cp settings
  have hnone : ({} : Memo).types.Nodup := List.nodup_nil
  obtain ⟨memo, hrun, hmemo⟩ := mapM_prepare_run hcp configs hempty
  obtain ⟨memo', hrun', hmemo'⟩ := mapM_prepare_run hcp order hempty
  let analyses := configs.filterMap (preparedAlone cp settings)
  have hready : (configs.filterMap fun c =>
      ((order.zip (order.map (preparedAlone cp settings))).lookup c).join) = analyses := by
    apply List.filterMap_congr
    intro c hc
    rw [lookup_zip_map _ (horder.mem_iff.mpr hc), Option.join_some]
  refine ⟨applyAll settings analyses records, memo, memo', ?_, ?_, ?_⟩
  · rw [analyzeConfigs, run_bind hrun, List.filterMap_map]
    rfl
  · rw [analyzeByWorkers, run_bind hrun']
    exact congrArg (fun as => (Except.ok (applyAll settings as records), memo')) hready
  · rw [List.perm_ext_iff_of_nodup (hmemo'.nodup hnone) (hmemo.nodup hnone)]
    intro t
    rw [hmemo'.mem_types, hmemo.mem_types]
    simp [horder.mem_iff]

end EndpointAudit.ChainAnalysis
