import EndpointAudit.Proofs.Report.Diff

/-!
# Differences the other way round

Comparing two reports the other way round exchanges what was added and what was removed, and turns
every change round. How the endpoints of a report are ordered and grouped does not matter as long as
no two of them have the same key.
-/

namespace EndpointAudit

/-- An endpoint with the two reports exchanged. -/
def EndpointDiff.swap (d : EndpointDiff) : EndpointDiff := { new := d.old, old := d.new }

@[simp] theorem EndpointDiff.swap_swap (d : EndpointDiff) : d.swap.swap = d := rfl

private theorem EndpointDiff.swap_injective : Function.Injective EndpointDiff.swap := by
  intro c d h
  rw [← c.swap_swap, h, d.swap_swap]

namespace Report

open Assoc

variable (key : DiffKey) (old new : Report)

/-! ## Exchanging the reports -/

theorem diff_added_eq_swap :
    (diff key new old).added = (diff key old new).removed.map (·.swap) := by
  simp only [diff, List.map_filterMap]
  apply List.filterMap_congr
  rintro ⟨k, e⟩ -
  dsimp only
  split <;> rfl

private theorem diff_removed_eq_swap :
    (diff key new old).removed = (diff key old new).added.map (·.swap) := by
  rw [diff_added_eq_swap, List.map_map]
  exact (List.map_id _).symm

private theorem mem_diff_changed_swap (c : EndpointDiff) :
    c ∈ (diff key new old).changed ↔ c.swap ∈ (diff key old new).changed := by
  rw [mem_diff_changed, mem_diff_changed]
  constructor
  · rintro ⟨k, before, e, hnew, hold, hne, rfl⟩
    exact ⟨k, e, before, hold, hnew, hne.symm, rfl⟩
  · rintro ⟨k, before, e, hold, hnew, hne, hc⟩
    refine ⟨k, e, before, hnew, hold, hne.symm, ?_⟩
    rw [← c.swap_swap, hc]
    rfl

private theorem nodup_of_nodup_filterMap {α β : Type} {f : α → Option β} {xs : List α}
    (hsome : ∀ x ∈ xs, ∃ y, f x = some y) (h : (xs.filterMap f).Nodup) : xs.Nodup := by
  rw [List.Nodup, List.pairwise_filterMap] at h
  apply h.imp_of_mem
  rintro x _ hx - hne rfl
  obtain ⟨y, hy⟩ := hsome x hx
  exact hne y hy y hy rfl

/-- No endpoint is listed twice, because no key is. -/
theorem nodup_diff_changed : (diff key old new).changed.Nodup := by
  apply nodup_of_nodup_filterMap (f := (·.key? key))
  · intro c hc
    obtain ⟨k, before, e, -, -, -, rfl⟩ := (mem_diff_changed key old new c).mp hc
    exact ⟨key.of e, rfl⟩
  · exact (diff_changed_order key old new).nodup (nodup_keys_index key new)

private theorem diff_changed_perm_swap :
    (diff key new old).changed.Perm ((diff key old new).changed.map (·.swap)) := by
  have hnodup : ((diff key old new).changed.map (·.swap)).Nodup :=
    (nodup_diff_changed key old new).map EndpointDiff.swap_injective
  rw [List.perm_ext_iff_of_nodup (nodup_diff_changed key new old) hnodup]
  intro c
  rw [mem_diff_changed_swap, List.mem_map]
  constructor
  · intro hc
    exact ⟨c.swap, hc, c.swap_swap⟩
  · rintro ⟨d, hd, rfl⟩
    exact hd

/-! ## Order and grouping -/

variable {key}

theorem index_of_nodup {r : Report} (h : (r.endpoints.map key.of).Nodup) :
    r.index key = key.pairs r.endpoints := by
  have hkeys : (key.pairs r.endpoints).map (·.1) = r.endpoints.map key.of := by
    simp [DiffKey.pairs]
  rw [index_eq_keepLast, ← foldl_put_eq_keepLast]
  apply putAll_nil_of_nodup
  rwa [hkeys]

private theorem index_perm {r r' : Report} (hnodup : (r.endpoints.map key.of).Nodup)
    (hperm : r'.endpoints.Perm r.endpoints) : (r'.index key).Perm (r.index key) := by
  have hnodup' : (r'.endpoints.map key.of).Nodup := (hperm.map key.of).nodup_iff.mpr hnodup
  rw [index_of_nodup hnodup, index_of_nodup hnodup']
  exact hperm.map _

/-- An old report counts only through what its index has under a key, and through the order of its
index where something was removed. -/
theorem diff_of_index_perm {old old' : Report} (h : (old'.index key).Perm (old.index key)) :
    (diff key old' new).added = (diff key old new).added ∧
    (diff key old' new).removed.Perm (diff key old new).removed ∧
    (diff key old' new).changed = (diff key old new).changed := by
  have hget : ∀ k, get? k (old'.index key) = get? k (old.index key) :=
    get?_eq_of_perm h (nodup_keys_index key old')
  refine ⟨?added, ?removed, ?changed⟩
  case added => simp only [diff, hasKey_eq_isSome_get?, hget]
  case removed => exact h.filterMap _
  case changed => simp only [diff, hget]

/-- **The difference of two reports is symmetric and does not depend on their layout.** -/
theorem diff_symmetric_layoutFree (key : DiffKey) :
    (∀ old new : Report,
      (diff key new old).added = (diff key old new).removed.map (·.swap) ∧
      (diff key new old).removed = (diff key old new).added.map (·.swap) ∧
      (diff key new old).changed.Perm ((diff key old new).changed.map (·.swap))) ∧
    ∀ r r' x : Report, (r.endpoints.map key.of).Nodup → r'.endpoints.Perm r.endpoints →
      (diff key r' x).added.Perm (diff key r x).added ∧
      (diff key r' x).removed.Perm (diff key r x).removed ∧
      (diff key r' x).changed.Perm (diff key r x).changed := by
  constructor
  · intro old new
    exact ⟨diff_added_eq_swap key old new, diff_removed_eq_swap key old new,
      diff_changed_perm_swap key old new⟩
  · intro r r' x hnodup hperm
    obtain ⟨hadded, hremoved, hchanged⟩ := diff_of_index_perm x (index_perm hnodup hperm)
    exact ⟨.of_eq hadded, hremoved, .of_eq hchanged⟩

theorem diff_symmetric_layoutFree_regrouped :
    let a : Entry := { path := "/a", verb := .get }
    let b : Entry := { path := "/b", verb := .get, authExpression := "user" }
    let c : Entry := { path := "/c", verb := .post, authExpression := "admin" }
    let r : Report := ⟨default, [⟨"None", [a]⟩, ⟨"user", [b]⟩, ⟨"admin", [c]⟩]⟩
    let r' : Report := ⟨default, [⟨"all", [c, b, a]⟩]⟩
    let x : Report := ⟨default, [⟨"None", [{ a with basicAuthRequired := true }]⟩]⟩
    ((r.endpoints.map DiffKey.path.of).Nodup ∧ r'.endpoints.Perm r.endpoints) ∧
    ((diff .path r x).removed = [{ old := some b }, { old := some c }] ∧
      (diff .path r x).changed.length = 1) ∧
    (diff .path r' x).added.Perm (diff .path r x).added ∧
    (diff .path r' x).removed.Perm (diff .path r x).removed ∧
    (diff .path r' x).changed.Perm (diff .path r x).changed := by
  intro a b c r r' x
  have hnodup : (r.endpoints.map DiffKey.path.of).Nodup := by decide
  have hperm : r'.endpoints.Perm r.endpoints := by decide
  refine ⟨⟨hnodup, hperm⟩, by decide, ?_⟩
  exact (diff_symmetric_layoutFree .path).2 r r' x hnodup hperm

-- Where two endpoints have one key, their order decides which of them is compared.
example :
    let report (verbs : List HttpVerb) : Report :=
      ⟨default, [⟨noAuthorization, verbs.map fun verb => { path := "/a", verb }⟩]⟩
    (diff .path (report [.get, .post]) (report [.post])).changed = [] ∧
    (diff .path (report [.post, .get]) (report [.post])).changed.length = 1 := by
  decide

end Report

end EndpointAudit
