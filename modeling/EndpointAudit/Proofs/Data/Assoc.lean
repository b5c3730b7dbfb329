import EndpointAudit.Data.Assoc
import Mathlib.Data.List.Basic
import Mathlib.Data.List.Induction

/-!
# Repeated keys

Setting the values of a list of pairs one after the other leaves every key at the place where it
first occurs, with the value that it is given last.
-/

namespace EndpointAudit.Assoc

variable {α β : Type} [BEq α] [LawfulBEq α]

/-- The pairs of a list, each key once: at its first place and with its last value. -/
def keepLast (entries : List (α × β)) : List (α × β) :=
  (entries.map (·.1)).eraseDups.filterMap fun key => entries.reverse.find? (·.1 == key)

theorem mem_of_get?_eq_some {key : α} {value : β} {entries : List (α × β)}
    (h : get? key entries = some value) : (key, value) ∈ entries := by
  obtain ⟨⟨k, v⟩, hfound, rfl⟩ := Option.map_eq_some_iff.mp h
  have hkey : k = key := by simpa using List.find?_some hfound
  exact hkey ▸ List.mem_of_find?_eq_some hfound

theorem hasKey_iff (key : α) (entries : List (α × β)) :
    hasKey key entries = true ↔ ∃ value, (key, value) ∈ entries := by
  simp [hasKey]

theorem nodup_eraseDups (keys : List α) : keys.eraseDups.Nodup := by
  induction h : keys.length using Nat.strongRecOn generalizing keys with
  | ind n ih =>
    cases keys with
    | nil => simp
    | cons key keys =>
      rw [List.eraseDups_cons, List.nodup_cons]
      refine ⟨by simp, ih _ ?_ _ rfl⟩
      have := List.length_filter_le (fun b => !b == key) keys
      simp only [List.length_cons] at h
      omega

theorem eraseDups_filter (p : α → Bool) (keys : List α) :
    (keys.filter p).eraseDups = keys.eraseDups.filter p := by
  induction h : keys.length using Nat.strongRecOn generalizing keys with
  | ind n ih =>
    cases keys with
    | nil => simp
    | cons key keys =>
      have hlength := List.length_filter_le (fun b => !b == key) keys
      simp only [List.length_cons] at h
      have hrest := ih _ (by omega) (keys.filter fun b => !b == key) rfl
      rw [List.eraseDups_cons]
      by_cases hp : p key = true
      · rw [List.filter_cons_of_pos hp, List.filter_cons_of_pos hp, List.eraseDups_cons, ← hrest,
          List.filter_filter, List.filter_filter]
        simp only [Bool.and_comm]
      · have hsame : (keys.filter fun b => !b == key).filter p = keys.filter p := by
          rw [List.filter_filter]
          apply List.filter_congr
          intro b _
          by_cases hb : b = key
          · simp [hb, hp]
          · simp [hb]
        rw [List.filter_cons_of_neg hp, List.filter_cons_of_neg hp, ← hrest, hsame]

theorem put_filterMap (key : α) (value : β) (keys : List α) (hnodup : keys.Nodup)
    (f : α → Option (α × β)) (hf : ∀ k ∈ keys, ∃ v, f k = some (k, v)) :
    put key value (keys.filterMap f) =
      (if keys.contains key then keys else keys ++ [key]).filterMap
        fun k => if k == key then some (key, value) else f k := by
  induction keys with
  | nil => simp [put]
  | cons k keys ih =>
    obtain ⟨v, hv⟩ := hf k (by simp)
    rw [List.nodup_cons] at hnodup
    have hrest := ih hnodup.2 fun k' hk' => hf k' (by simp [hk'])
    by_cases hk : k = key
    · subst hk
      have hsame : keys.filterMap (fun k' => if k' == k then some (k, value) else f k') =
          keys.filterMap f := by
        apply List.filterMap_congr
        intro k' hk'
        have hne : k' ≠ k := fun h => hnodup.1 (h ▸ hk')
        simp [hne]
      simp [hv, put, hsame]
    · have hk' : ¬ key = k := fun h => hk h.symm
      by_cases hmem : key ∈ keys <;> simp_all [put]

private theorem find?_reverse_append (entries : List (α × β)) (key k : α) (value : β) :
    (entries ++ [(key, value)]).reverse.find? (·.1 == k) =
      if k == key then some (key, value) else entries.reverse.find? (·.1 == k) := by
  by_cases h : key = k
  · simp [h]
  · have h' : ¬ k = key := fun heq => h heq.symm
    simp [h, h']

theorem find?_reverse_eq (entries : List (α × β)) {k : α}
    (h : k ∈ (entries.map (·.1)).eraseDups) :
    ∃ v, entries.reverse.find? (·.1 == k) = some (k, v) := by
  rw [List.mem_eraseDups] at h
  obtain ⟨⟨k', v⟩, hmem, rfl⟩ := List.mem_map.mp h
  have hsome : (entries.reverse.find? (·.1 == k')).isSome := by
    rw [List.find?_isSome]
    exact ⟨(k', v), by simpa using hmem, by simp⟩
  obtain ⟨⟨k, w⟩, hfound⟩ := Option.isSome_iff_exists.mp hsome
  have hkey : k = k' := by simpa using List.find?_some hfound
  exact ⟨w, by rw [hfound, hkey]⟩

theorem eraseDups_concat (keys : List α) (key : α) :
    (keys ++ [key]).eraseDups =
      if keys.eraseDups.contains key then keys.eraseDups else keys.eraseDups ++ [key] := by
  rw [List.eraseDups_append]
  by_cases h : key ∈ keys <;> simp [List.removeAll, List.mem_eraseDups, List.eraseDups_cons, h]

/-- The elements that are kept stand in the order in which they first occur. -/
theorem pairwise_idxOf_eraseDups (keys : List α) :
    keys.eraseDups.Pairwise fun a b => keys.idxOf a < keys.idxOf b := by
  induction keys using List.reverseRecOn with
  | nil => simp
  | append_singleton keys key ih =>
    have hkept : keys.eraseDups.Pairwise fun a b =>
        (keys ++ [key]).idxOf a < (keys ++ [key]).idxOf b := by
      refine ih.imp_of_mem fun {a b} ha hb hlt => ?_
      rw [List.idxOf_append_of_mem (List.mem_eraseDups.mp ha),
        List.idxOf_append_of_mem (List.mem_eraseDups.mp hb)]
      exact hlt
    rw [eraseDups_concat]
    split
    · exact hkept
    · next hnew =>
      have hkey : key ∉ keys := by simpa [List.mem_eraseDups] using hnew
      rw [List.pairwise_append]
      refine ⟨hkept, List.pairwise_singleton _ _, fun a ha b hb => ?_⟩
      rw [List.mem_singleton.mp hb, List.idxOf_append_of_mem (List.mem_eraseDups.mp ha),
        List.idxOf_append_of_notMem hkey]
      exact Nat.lt_add_right _ (List.idxOf_lt_length_of_mem (List.mem_eraseDups.mp ha))

/-- Putting keys at the end unless they are there already keeps each at its first place. -/
theorem foldl_append_eq_eraseDups (keys : List α) :
    keys.foldl (fun known key => if known.contains key then known else known ++ [key]) [] =
      keys.eraseDups := by
  induction keys using List.reverseRecOn with
  | nil => rfl
  | append_singleton keys key ih => rw [List.foldl_append, ih, eraseDups_concat]; rfl

/-- Setting values one after the other keeps the last value of every key. -/
theorem foldl_put_eq_keepLast (entries : List (α × β)) :
    entries.foldl (fun es entry => put entry.1 entry.2 es) [] = keepLast entries := by
  induction entries using List.reverseRecOn with
  | nil => rfl
  | append_singleton entries entry ih =>
    obtain ⟨key, value⟩ := entry
    rw [List.foldl_append, ih]
    simp only [List.foldl_cons, List.foldl_nil, keepLast, List.map_append, List.map_cons,
      List.map_nil, eraseDups_concat, find?_reverse_append]
    exact put_filterMap key value _ (nodup_eraseDups (entries.map (·.1))) _
      fun k hk => find?_reverse_eq entries hk

end EndpointAudit.Assoc
