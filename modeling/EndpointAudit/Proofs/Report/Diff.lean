import EndpointAudit.Proofs.Data.Lookup
import EndpointAudit.Report.Diff

/-!
# Differences as patches

A report is indexed by key, each key at its first place with its last endpoint. The difference of
two reports is a patch between their indexes that is complete and minimal: it turns the old index
into one that agrees with the new one, and it lists nothing that agrees already.
-/

namespace EndpointAudit

/-- Entries under their keys. -/
def DiffKey.pairs (key : DiffKey) (entries : List Entry) : List (List String × Entry) :=
  entries.map fun e => (key.of e, e)

/-- The key of an endpoint that is in one of the reports. -/
def EndpointDiff.key? (key : DiffKey) (d : EndpointDiff) : Option (List String) :=
  (d.new.or d.old).map key.of

namespace DiffReport

/-- The entries that a difference takes away. -/
def dropped (d : DiffReport) : List Entry := d.removed.filterMap (·.old)

/-- The entries that a difference brings, in the place of others or as new ones. -/
def installed (d : DiffReport) : List Entry := (d.changed ++ d.added).filterMap (·.new)

/-- An index after a difference: keys that were removed are deleted, those that were changed get
their new entries, and those that were added are put at the end. -/
def patch (d : DiffReport) (key : DiffKey) (index : List (List String × Entry)) :
    List (List String × Entry) :=
  Assoc.putAll (key.pairs d.installed)
    (index.filter fun entry => !(d.dropped.map key.of).contains entry.1)

/-- `d` is the patch from one index to another. -/
structure IsPatch (key : DiffKey) (old new : List (List String × Entry)) (d : DiffReport) :
    Prop where
  mem_added : ∀ c, c ∈ d.added ↔
    ∃ k e, (k, e) ∈ new ∧ k ∉ old.map (·.1) ∧ c = { new := some e }
  mem_removed : ∀ c, c ∈ d.removed ↔
    ∃ k e, (k, e) ∈ old ∧ k ∉ new.map (·.1) ∧ c = { old := some e }
  mem_changed : ∀ c, c ∈ d.changed ↔
    ∃ k before e, (k, before) ∈ old ∧ (k, e) ∈ new ∧ before.comparisonKey ≠ e.comparisonKey ∧
      c = { new := some e, old := some before }
  added_order : (d.added.filterMap (·.key? key)).Sublist (new.map (·.1))
  removed_order : (d.removed.filterMap (·.key? key)).Sublist (old.map (·.1))
  changed_order : (d.changed.filterMap (·.key? key)).Sublist (new.map (·.1))
  once : ((d.added ++ d.removed ++ d.changed).filterMap (·.key? key)).Nodup
  /-- The patched index has the keys of the new one. -/
  patch_keys : ((d.patch key old).map (·.1)).Perm (new.map (·.1))
  /-- The patched index agrees with the new one, key by key, in the fields that count. -/
  patch_agrees : ∀ k, (Assoc.get? k (d.patch key old)).map (·.comparisonKey) =
    (Assoc.get? k new).map (·.comparisonKey)
  isEmpty_iff : d.isEmpty = true ↔ ∀ k, (Assoc.get? k old).map (·.comparisonKey) =
    (Assoc.get? k new).map (·.comparisonKey)

end DiffReport

namespace Report

open Assoc DiffReport

variable (key : DiffKey)

/-! ## The index of a report -/

theorem index_eq_keepLast (r : Report) : r.index key = keepLast (key.pairs r.endpoints) := by
  rw [← foldl_put_eq_keepLast, DiffKey.pairs, List.foldl_map]
  rfl

theorem nodup_keys_index (r : Report) : ((r.index key).map (·.1)).Nodup := by
  rw [index_eq_keepLast, keys_keepLast]
  exact nodup_eraseDups _

theorem key_of_mem_index {r : Report} {k : List String} {e : Entry} (h : (k, e) ∈ r.index key) :
    key.of e = k := by
  rw [index_eq_keepLast, keepLast, List.mem_filterMap] at h
  obtain ⟨k', -, hfound⟩ := h
  have hmem := List.mem_of_find?_eq_some hfound
  simp only [DiffKey.pairs, List.mem_reverse, List.mem_map, Prod.mk.injEq] at hmem
  obtain ⟨e', -, hk, rfl⟩ := hmem
  exact hk

theorem get?_index_eq_some_iff (r : Report) (k : List String) (e : Entry) :
    get? k (r.index key) = some e ↔ (k, e) ∈ r.index key :=
  get?_eq_some_iff (nodup_keys_index key r) k e

/-! ## What the difference lists -/

/-- What one index has alone, as the differences that `f` makes of it. -/
private theorem mem_alone (entries others : List (List String × Entry))
    (f : Entry → EndpointDiff) (c : EndpointDiff) :
    (c ∈ entries.filterMap fun (k, e) => if hasKey k others then none else some (f e)) ↔
      ∃ k e, (k, e) ∈ entries ∧ k ∉ others.map (·.1) ∧ c = f e := by
  simp only [List.mem_filterMap, Prod.exists, hasKey_eq_isSome_get?, get?_isSome_iff]
  constructor
  · rintro ⟨k, e, hmem, hc⟩
    split at hc
    · cases hc
    · next hnot =>
      cases hc
      exact ⟨k, e, hmem, hnot, rfl⟩
  · rintro ⟨k, e, hmem, hnot, rfl⟩
    exact ⟨k, e, hmem, if_neg hnot⟩

variable (old new : Report)

theorem mem_diff_added (c : EndpointDiff) : c ∈ (diff key old new).added ↔
    ∃ k e, (k, e) ∈ new.index key ∧ k ∉ (old.index key).map (·.1) ∧ c = { new := some e } :=
  mem_alone (new.index key) (old.index key) (fun e => { new := some e }) c

theorem mem_diff_removed (c : EndpointDiff) : c ∈ (diff key old new).removed ↔
    ∃ k e, (k, e) ∈ old.index key ∧ k ∉ (new.index key).map (·.1) ∧ c = { old := some e } :=
  mem_alone (old.index key) (new.index key) (fun e => { old := some e }) c

theorem mem_diff_changed (c : EndpointDiff) : c ∈ (diff key old new).changed ↔
    ∃ k before e, (k, before) ∈ old.index key ∧ (k, e) ∈ new.index key ∧
      before.comparisonKey ≠ e.comparisonKey ∧ c = { new := some e, old := some before } := by
  simp only [diff, List.mem_filterMap, Prod.exists, Option.bind_eq_bind, Option.bind_eq_some_iff,
    get?_index_eq_some_iff, Entry.hasChanged, bne_iff_ne]
  constructor
  · rintro ⟨k, e, hnew, before, hold, hc⟩
    split at hc
    · next hne =>
      cases hc
      exact ⟨k, before, e, hold, hnew, hne, rfl⟩
    · cases hc
  · rintro ⟨k, before, e, hold, hnew, hne, rfl⟩
    exact ⟨k, e, hnew, before, hold, if_pos hne⟩

/-! ## Keys and their order -/

/-- Differences made of the entries of an index, each under the key of its entry, are in the order
of the index. -/
private theorem keys_sublist (index : List (List String × Entry))
    (f : List String × Entry → Option EndpointDiff)
    (hf : ∀ entry ∈ index, ∀ c, f entry = some c → c.key? key = some entry.1) :
    ((index.filterMap f).filterMap (·.key? key)).Sublist (index.map (·.1)) := by
  induction index with
  | nil => simp
  | cons entry index ih =>
    have hrest := ih fun entry' hmem => hf entry' (by simp [hmem])
    cases hc : f entry with
    | none =>
      rw [List.filterMap_cons_none hc]
      exact hrest.cons entry.1
    | some c =>
      rw [List.filterMap_cons_some hc, List.filterMap_cons_some (hf entry (by simp) c hc)]
      exact hrest.cons_cons entry.1

private theorem alone_order (r : Report) (others : List (List String × Entry))
    (f : Entry → EndpointDiff) (hf : ∀ e, (f e).key? key = some (key.of e)) :
    (((r.index key).filterMap fun (k, e) =>
      if hasKey k others then none else some (f e)).filterMap (·.key? key)).Sublist
      ((r.index key).map (·.1)) := by
  apply keys_sublist
  rintro ⟨k, e⟩ hmem c hc
  dsimp only at hc
  split at hc
  · cases hc
  · cases hc
    rw [hf, key_of_mem_index key hmem]

private theorem not_mem_of_alone (r : Report) (others : List (List String × Entry))
    (f : Entry → EndpointDiff) (hf : ∀ e, (f e).key? key = some (key.of e)) {k : List String}
    (hk : k ∈ ((r.index key).filterMap fun (k, e) =>
      if hasKey k others then none else some (f e)).filterMap (·.key? key)) :
    k ∉ others.map (·.1) := by
  obtain ⟨c, hc, hkey⟩ := List.mem_filterMap.mp hk
  obtain ⟨k', e, hmem, hnot, rfl⟩ := (mem_alone (r.index key) others f c).mp hc
  rw [hf, key_of_mem_index key hmem] at hkey
  exact Option.some.inj hkey ▸ hnot

theorem diff_added_order :
    ((diff key old new).added.filterMap (·.key? key)).Sublist ((new.index key).map (·.1)) :=
  alone_order key new (old.index key) (fun e => { new := some e }) fun _ => rfl

theorem diff_removed_order :
    ((diff key old new).removed.filterMap (·.key? key)).Sublist ((old.index key).map (·.1)) :=
  alone_order key old (new.index key) (fun e => { old := some e }) fun _ => rfl

theorem diff_changed_order :
    ((diff key old new).changed.filterMap (·.key? key)).Sublist ((new.index key).map (·.1)) := by
  apply keys_sublist
  intro entry hmem c hc
  obtain ⟨before, -, hc⟩ := Option.bind_eq_some_iff.mp hc
  split at hc
  · cases hc
    simp [EndpointDiff.key?, key_of_mem_index key hmem]
  · cases hc

variable {key old new}

private theorem not_mem_old_of_added {k : List String}
    (hk : k ∈ (diff key old new).added.filterMap (·.key? key)) :
    k ∉ (old.index key).map (·.1) :=
  not_mem_of_alone key new (old.index key) (fun e => { new := some e }) (fun _ => rfl) hk

theorem not_mem_new_of_removed {k : List String}
    (hk : k ∈ (diff key old new).removed.filterMap (·.key? key)) :
    k ∉ (new.index key).map (·.1) :=
  not_mem_of_alone key old (new.index key) (fun e => { old := some e }) (fun _ => rfl) hk

private theorem mem_old_of_changed {k : List String}
    (hk : k ∈ (diff key old new).changed.filterMap (·.key? key)) :
    k ∈ (old.index key).map (·.1) := by
  obtain ⟨c, hc, hkey⟩ := List.mem_filterMap.mp hk
  obtain ⟨k', before, e, hbefore, hmem, -, rfl⟩ := (mem_diff_changed key old new c).mp hc
  have hk' : k' = k := by simpa [EndpointDiff.key?, key_of_mem_index key hmem] using hkey
  exact hk' ▸ List.mem_map.mpr ⟨_, hbefore, rfl⟩

variable (key old new)

private theorem nodup_diff_keys : (((diff key old new).added ++ (diff key old new).removed ++
    (diff key old new).changed).filterMap (·.key? key)).Nodup := by
  have hadded := diff_added_order key old new
  have hremoved := diff_removed_order key old new
  have hchanged := diff_changed_order key old new
  have hnew := nodup_keys_index key new
  have hold := nodup_keys_index key old
  rw [List.filterMap_append, List.filterMap_append, List.nodup_append, List.nodup_append]
  refine ⟨⟨hadded.nodup hnew, hremoved.nodup hold, ?_⟩, hchanged.nodup hnew, ?_⟩
  · rintro k hk _ hk' rfl
    exact not_mem_new_of_removed hk' (hadded.subset hk)
  · rintro k hk _ hk' rfl
    rcases List.mem_append.mp hk with hk | hk
    · exact not_mem_old_of_added hk (mem_old_of_changed hk')
    · exact not_mem_new_of_removed hk (hchanged.subset hk')

/-! ## Patching -/

theorem mem_dropped_iff (k : List String) : k ∈ (diff key old new).dropped.map key.of ↔
    k ∈ (old.index key).map (·.1) ∧ k ∉ (new.index key).map (·.1) := by
  simp only [dropped, List.mem_map, List.mem_filterMap, mem_diff_removed, Prod.exists]
  constructor
  · rintro ⟨e, ⟨c, ⟨k', e', hmem, hnot, rfl⟩, he⟩, rfl⟩
    cases he
    rw [key_of_mem_index key hmem]
    exact ⟨⟨k', e, hmem, rfl⟩, by simpa using hnot⟩
  · rintro ⟨⟨k', e, hmem, rfl⟩, hnot⟩
    exact ⟨e, ⟨_, ⟨k', e, hmem, by simpa using hnot, rfl⟩, rfl⟩, key_of_mem_index key hmem⟩

/-- What a difference brings are the entries of the new index that the old one does not match. -/
theorem mem_installed_iff (k : List String) (e : Entry) :
    (k, e) ∈ key.pairs (diff key old new).installed ↔ (k, e) ∈ new.index key ∧
      (get? k (old.index key)).map (·.comparisonKey) ≠ some e.comparisonKey := by
  simp only [DiffKey.pairs, installed, List.mem_map, List.mem_filterMap, List.mem_append,
    Prod.mk.injEq, mem_diff_added, mem_diff_changed]
  constructor
  · rintro ⟨e', ⟨c, hc, hnew⟩, rfl, rfl⟩
    rcases hc with ⟨k', before, e, hold, hmem, hne, rfl⟩ | ⟨k', e, hmem, hnot, rfl⟩
    · cases hnew
      rw [key_of_mem_index key hmem, (get?_index_eq_some_iff key old k' before).mpr hold]
      exact ⟨hmem, by simpa using hne⟩
    · cases hnew
      have hnone := (get?_eq_none_iff k' (old.index key)).mpr (by simpa using hnot)
      rw [key_of_mem_index key hmem, hnone]
      exact ⟨hmem, by simp⟩
  · rintro ⟨hmem, hne⟩
    refine ⟨e, ?_, key_of_mem_index key hmem, rfl⟩
    cases hold : get? k (old.index key) with
    | none =>
      have hnot := (get?_eq_none_iff k (old.index key)).mp hold
      exact ⟨{ new := some e }, .inr ⟨k, e, hmem, by simpa using hnot, rfl⟩, rfl⟩
    | some before =>
      have hbefore := (get?_index_eq_some_iff key old k before).mp hold
      rw [hold] at hne
      exact ⟨_, .inl ⟨k, before, e, hbefore, hmem, by simpa using hne, rfl⟩, rfl⟩

/-- What is kept of the old index are the keys that the new one has too. -/
theorem get?_kept (k : List String) :
    get? k ((old.index key).filter fun entry =>
      !((diff key old new).dropped.map key.of).contains entry.1) =
    if k ∈ (new.index key).map (·.1) then get? k (old.index key) else none := by
  rw [get?_filter (fun k => !((diff key old new).dropped.map key.of).contains k)]
  by_cases hnew : k ∈ (new.index key).map (·.1)
  · have hdropped : k ∉ (diff key old new).dropped.map key.of :=
      fun h => ((mem_dropped_iff key old new k).mp h).2 hnew
    rw [if_pos hnew, if_pos (by simpa using hdropped)]
  · rw [if_neg hnew]
    split
    · next hkept =>
      rw [get?_eq_none_iff]
      intro hold
      have hdropped := (mem_dropped_iff key old new k).mpr ⟨hold, hnew⟩
      rw [List.contains_iff_mem.mpr hdropped] at hkept
      cases hkept
    · rfl

theorem get?_patch_diff (k : List String) :
    (get? k ((diff key old new).patch key (old.index key))).map (·.comparisonKey) =
      (get? k (new.index key)).map (·.comparisonKey) := by
  rw [patch, get?_putAll, get?_kept]
  cases hbrought : get? k (key.pairs (diff key old new).installed).reverse with
  | some e =>
    have hmem := List.mem_reverse.mp (mem_of_get?_eq_some hbrought)
    have hnew := ((mem_installed_iff key old new k e).mp hmem).1
    rw [(get?_index_eq_some_iff key new k e).mpr hnew, Option.some_or]
  | none =>
    have hnot : ∀ e, (k, e) ∉ key.pairs (diff key old new).installed := by
      simpa using (get?_eq_none_iff k _).mp hbrought
    rw [Option.none_or]
    cases hnew : get? k (new.index key) with
    | none => rw [if_neg ((get?_eq_none_iff k _).mp hnew)]
    | some e =>
      -- What is not brought has an entry in the old index that agrees with the new one.
      have hmem := (get?_index_eq_some_iff key new k e).mp hnew
      rw [if_pos (List.mem_map.mpr ⟨_, hmem, rfl⟩), Option.map_some]
      by_contra hne
      exact hnot e ((mem_installed_iff key old new k e).mpr ⟨hmem, hne⟩)

private theorem nodup_keys_patch :
    (((diff key old new).patch key (old.index key)).map (·.1)).Nodup := by
  apply nodup_keys_putAll
  exact (List.filter_sublist.map _).nodup (nodup_keys_index key old)

private theorem keys_patch_perm : (((diff key old new).patch key (old.index key)).map (·.1)).Perm
    ((new.index key).map (·.1)) := by
  rw [List.perm_ext_iff_of_nodup (nodup_keys_patch key old new) (nodup_keys_index key new)]
  exact fun k => mem_keys_iff_of_map_get?_eq (get?_patch_diff key old new k)

private theorem isEmpty_diff_iff : (diff key old new).isEmpty = true ↔
    ∀ k, (get? k (old.index key)).map (·.comparisonKey) =
      (get? k (new.index key)).map (·.comparisonKey) := by
  constructor
  · intro hempty k
    -- An empty patch leaves the old index as it is.
    have hpatch : (diff key old new).patch key (old.index key) = old.index key := by
      simp only [isEmpty, Bool.and_eq_true, List.isEmpty_iff] at hempty
      simp [patch, dropped, installed, hempty, DiffKey.pairs, putAll]
    rw [← get?_patch_diff key old new k, hpatch]
  · intro hagree
    have hkeys : ∀ k, k ∈ (old.index key).map (·.1) ↔ k ∈ (new.index key).map (·.1) :=
      fun k => mem_keys_iff_of_map_get?_eq (hagree k)
    have hadded : (diff key old new).added = [] := by
      rw [List.eq_nil_iff_forall_not_mem]
      intro c hc
      obtain ⟨k, e, hmem, hnot, -⟩ := (mem_diff_added key old new c).mp hc
      exact hnot ((hkeys k).mpr (List.mem_map.mpr ⟨_, hmem, rfl⟩))
    have hremoved : (diff key old new).removed = [] := by
      rw [List.eq_nil_iff_forall_not_mem]
      intro c hc
      obtain ⟨k, e, hmem, hnot, -⟩ := (mem_diff_removed key old new c).mp hc
      exact hnot ((hkeys k).mp (List.mem_map.mpr ⟨_, hmem, rfl⟩))
    have hchanged : (diff key old new).changed = [] := by
      rw [List.eq_nil_iff_forall_not_mem]
      intro c hc
      obtain ⟨k, before, e, hold, hnew, hne, -⟩ := (mem_diff_changed key old new c).mp hc
      have hk := hagree k
      rw [(get?_index_eq_some_iff key old k before).mpr hold,
        (get?_index_eq_some_iff key new k e).mpr hnew] at hk
      exact hne (by simpa using hk)
    simp [isEmpty, hadded, hremoved, hchanged]

/-- **The difference of two reports is the patch between their indexes.** -/
theorem diff_isPatch (key : DiffKey) (old new : Report) :
    old.index key = keepLast (key.pairs old.endpoints) ∧
    new.index key = keepLast (key.pairs new.endpoints) ∧
    IsPatch key (old.index key) (new.index key) (diff key old new) := by
  refine ⟨index_eq_keepLast key old, index_eq_keepLast key new, ?_⟩
  exact {
    mem_added := mem_diff_added key old new
    mem_removed := mem_diff_removed key old new
    mem_changed := mem_diff_changed key old new
    added_order := diff_added_order key old new
    removed_order := diff_removed_order key old new
    changed_order := diff_changed_order key old new
    once := nodup_diff_keys key old new
    patch_keys := keys_patch_perm key old new
    patch_agrees := get?_patch_diff key old new
    isEmpty_iff := isEmpty_diff_iff key old new }

-- Where paths alone are compared, the last verb on a path stands for it.
example :
    let report (verbs : List HttpVerb) : Report :=
      ⟨default, [⟨noAuthorization, verbs.map fun verb => { path := "/a", verb }⟩]⟩
    (diff .path (report [.get, .post]) (report [.post])).isEmpty = true ∧
    (diff .pathAndVerb (report [.get, .post]) (report [.post])).removed =
      [{ old := some { path := "/a", verb := .get } }] := by
  decide

end Report

end EndpointAudit
