import EndpointAudit.Proofs.Data.Assoc
import Mathlib.Data.List.Nodup

/-!
# Look-up in association lists

What is found under a key after values have been set or pairs left out, where no key is repeated,
and in the list of how often each element occurs.
-/

namespace EndpointAudit.Assoc

variable {α β : Type} [BEq α]

theorem get?_cons (key k : α) (v : β) (entries : List (α × β)) :
    get? key ((k, v) :: entries) = if k == key then some v else get? key entries := by
  by_cases h : k == key <;> simp [get?, h]

theorem get?_append (key : α) (entries more : List (α × β)) :
    get? key (entries ++ more) = (get? key entries).or (get? key more) := by
  simp [get?, List.find?_append, Option.map_or]

theorem hasKey_eq_isSome_get? (key : α) (entries : List (α × β)) :
    hasKey key entries = (get? key entries).isSome := by
  induction entries with
  | nil => rfl
  | cons entry entries ih =>
    obtain ⟨k, v⟩ := entry
    rw [get?_cons, hasKey, List.any_cons, ← hasKey, ih]
    cases k == key <;> simp

variable [LawfulBEq α]

theorem get?_isSome_iff (key : α) (entries : List (α × β)) :
    (get? key entries).isSome = true ↔ key ∈ entries.map (·.1) := by
  rw [← hasKey_eq_isSome_get?, hasKey_iff]
  simp

theorem get?_eq_none_iff (key : α) (entries : List (α × β)) :
    get? key entries = none ↔ key ∉ entries.map (·.1) := by
  rw [← get?_isSome_iff]
  simp

/-- Lists that agree under a key, at least as far as `f` sees, both have it or both lack it. -/
theorem mem_keys_iff_of_map_get?_eq {γ : Type} {f : β → γ} {key : α}
    {entries others : List (α × β)} (h : (get? key entries).map f = (get? key others).map f) :
    key ∈ entries.map (·.1) ↔ key ∈ others.map (·.1) := by
  have hsome := congrArg Option.isSome h
  rw [Option.isSome_map, Option.isSome_map] at hsome
  rw [← get?_isSome_iff, ← get?_isSome_iff, hsome]

/-- Where no key is repeated, looking a key up finds its only pair. -/
theorem get?_eq_some_iff {entries : List (α × β)} (hnodup : (entries.map (·.1)).Nodup)
    (key : α) (value : β) : get? key entries = some value ↔ (key, value) ∈ entries := by
  refine ⟨mem_of_get?_eq_some, fun hmem => ?_⟩
  induction entries with
  | nil => simp at hmem
  | cons entry entries ih =>
    obtain ⟨k, v⟩ := entry
    rw [List.map_cons, List.nodup_cons] at hnodup
    rw [get?_cons]
    rcases List.mem_cons.mp hmem with heq | hmem
    · cases heq
      simp
    · have hne : ¬ k = key := by
        rintro rfl
        exact hnodup.1 (List.mem_map.mpr ⟨_, hmem, rfl⟩)
      simpa [hne] using ih hnodup.2 hmem

/-- Where no key is repeated, the order does not matter. -/
theorem get?_eq_of_perm {entries others : List (α × β)} (hperm : entries.Perm others)
    (hnodup : (entries.map (·.1)).Nodup) (key : α) : get? key entries = get? key others := by
  have hothers : (others.map (·.1)).Nodup := (hperm.map _).nodup_iff.mp hnodup
  apply Option.ext
  intro value
  rw [get?_eq_some_iff hnodup, get?_eq_some_iff hothers, hperm.mem_iff]

theorem get?_filter (p : α → Bool) (key : α) (entries : List (α × β)) :
    get? key (entries.filter fun entry => p entry.1) =
      if p key then get? key entries else none := by
  induction entries with
  | nil => simp [get?]
  | cons entry entries ih =>
    obtain ⟨k, v⟩ := entry
    by_cases hk : k = key
    · subst hk
      cases hp : p k <;> simp_all [get?_cons]
    · cases hp : p k <;> simp_all [get?_cons]

theorem get?_put (key k : α) (value : β) (entries : List (α × β)) :
    get? k (put key value entries) = if key == k then some value else get? k entries := by
  induction entries with
  | nil => simp [put, get?]
  | cons entry entries ih =>
    obtain ⟨k', v⟩ := entry
    by_cases hk : k' = key
    · subst hk
      by_cases h : k' = k <;> simp [put, get?_cons, h]
    · by_cases h : k' = k <;> grind [put, get?_cons]

private theorem nodup_keys_put (key : α) (value : β) {entries : List (α × β)}
    (h : (entries.map (·.1)).Nodup) : ((put key value entries).map (·.1)).Nodup := by
  induction entries with
  | nil => simp [put]
  | cons entry entries ih =>
    obtain ⟨k, v⟩ := entry
    rw [List.map_cons, List.nodup_cons] at h
    by_cases hk : k = key
    · rw [put, if_pos (by simp [hk]), List.map_cons]
      exact List.nodup_cons.mpr h
    · have hnot : k ∉ (put key value entries).map (·.1) := by
        rw [← get?_eq_none_iff, get?_put, if_neg (by simpa using Ne.symm hk), get?_eq_none_iff]
        exact h.1
      rw [put, if_neg (by simpa using hk), List.map_cons]
      exact List.nodup_cons.mpr ⟨hnot, ih h.2⟩

/-! ## Setting several values -/

/-- Sets the values of a list of pairs one after the other. -/
def putAll (more entries : List (α × β)) : List (α × β) :=
  more.foldl (fun es entry => put entry.1 entry.2 es) entries

theorem get?_putAll (key : α) (more entries : List (α × β)) :
    get? key (putAll more entries) = (get? key more.reverse).or (get? key entries) := by
  induction more generalizing entries with
  | nil => simp [putAll, get?]
  | cons entry more ih =>
    obtain ⟨k, v⟩ := entry
    have hstep : putAll ((k, v) :: more) entries = putAll more (put k v entries) := rfl
    rw [hstep, ih, get?_put, List.reverse_cons, get?_append, Option.or_assoc, get?_cons]
    cases k == key <;> simp [get?]

theorem nodup_keys_putAll (more : List (α × β)) {entries : List (α × β)}
    (h : (entries.map (·.1)).Nodup) : ((putAll more entries).map (·.1)).Nodup := by
  induction more generalizing entries with
  | nil => exact h
  | cons entry more ih => exact ih (nodup_keys_put entry.1 entry.2 h)

private theorem put_of_not_mem {key : α} (value : β) {entries : List (α × β)}
    (h : key ∉ entries.map (·.1)) : put key value entries = entries ++ [(key, value)] := by
  induction entries with
  | nil => rfl
  | cons entry entries ih =>
    obtain ⟨k, v⟩ := entry
    rw [List.map_cons, List.mem_cons, not_or] at h
    have hk : ¬ (k == key) = true := by simpa using Ne.symm h.1
    rw [put, if_neg hk, ih h.2, List.cons_append]

/-- Where no key is repeated, setting the values from the start gives the pairs back. -/
theorem putAll_nil_of_nodup {entries : List (α × β)} (h : (entries.map (·.1)).Nodup) :
    putAll entries [] = entries := by
  induction entries using List.reverseRecOn with
  | nil => rfl
  | append_singleton entries entry ih =>
    have hstep : putAll (entries ++ [entry]) [] = put entry.1 entry.2 (putAll entries []) :=
      List.foldl_concat ..
    rw [List.map_append, List.map_singleton, ← List.concat_eq_append, List.nodup_concat] at h
    rw [hstep, ih h.2]
    exact put_of_not_mem entry.2 h.1

/-- Sets the values of a list of pairs one after the other, each only if its key has none yet. -/
def addAll (more entries : List (α × β)) : List (α × β) :=
  more.foldl (fun es entry => putIfAbsent entry.1 entry.2 es) entries

omit [LawfulBEq α] in
theorem addAll_append (more others entries : List (α × β)) :
    addAll (more ++ others) entries = addAll others (addAll more entries) :=
  List.foldl_append

private theorem get?_putIfAbsent (key k : α) (value : β) (entries : List (α × β)) :
    get? k (putIfAbsent key value entries) =
      (get? k entries).or (if key == k then some value else none) := by
  rw [putIfAbsent, hasKey_eq_isSome_get?]
  split
  · next h =>
    by_cases hk : key = k
    · obtain ⟨v, hv⟩ := Option.isSome_iff_exists.mp (hk ▸ h)
      simp [hv]
    · simp [hk]
  · rw [get?_append, get?_cons]
    rfl

theorem get?_addAll (key : α) (more entries : List (α × β)) :
    get? key (addAll more entries) = (get? key entries).or (get? key more) := by
  induction more generalizing entries with
  | nil => simp [addAll, get?]
  | cons entry more ih =>
    obtain ⟨k, v⟩ := entry
    have hstep : addAll ((k, v) :: more) entries = addAll more (putIfAbsent k v entries) := rfl
    rw [hstep, ih, get?_putIfAbsent, Option.or_assoc, get?_cons]
    cases k == key <;> simp

theorem nodup_keys_addAll (more : List (α × β)) {entries : List (α × β)}
    (h : (entries.map (·.1)).Nodup) : ((addAll more entries).map (·.1)).Nodup := by
  induction more generalizing entries with
  | nil => exact h
  | cons entry more ih =>
    apply ih
    simp only [putIfAbsent, hasKey_eq_isSome_get?]
    split
    · exact h
    · next habsent =>
      rw [get?_isSome_iff] at habsent
      rw [List.map_append, List.map_singleton, ← List.concat_eq_append]
      exact List.nodup_concat _ _ |>.mpr ⟨habsent, h⟩

theorem keys_keepLast (entries : List (α × β)) :
    (keepLast entries).map (·.1) = (entries.map (·.1)).eraseDups := by
  rw [keepLast, List.map_filterMap]
  refine (List.filterMap_congr fun key hkey => ?_).trans List.filterMap_some
  obtain ⟨v, hv⟩ := find?_reverse_eq entries hkey
  simp [hv]

/-! ## Counting -/

private theorem getD_get?_counts (xs : List α) (x : α) :
    (get? x (xs.eraseDups.map fun y => (y, xs.count y))).getD 0 = xs.count x := by
  have hkeys : (xs.eraseDups.map fun y => (y, xs.count y)).map (·.1) = xs.eraseDups := by
    simp [Function.comp_def]
  by_cases hx : x ∈ xs
  · have hfound : get? x (xs.eraseDups.map fun y => (y, xs.count y)) = some (xs.count x) := by
      rw [get?_eq_some_iff (by rw [hkeys]; exact nodup_eraseDups xs)]
      exact List.mem_map.mpr ⟨x, List.mem_eraseDups.mpr hx, rfl⟩
    rw [hfound, Option.getD_some]
  · have hnone : get? x (xs.eraseDups.map fun y => (y, xs.count y)) = none := by
      rw [get?_eq_none_iff, hkeys, List.mem_eraseDups]
      exact hx
    rw [hnone, Option.getD_none, List.count_eq_zero.mpr hx]

/-- Tallying lists every element at its first place with the number of times it occurs. -/
theorem tally_eq (xs : List α) : tally xs = xs.eraseDups.map fun x => (x, xs.count x) := by
  induction xs using List.reverseRecOn with
  | nil => rfl
  | append_singleton xs x ih =>
    have hstep : tally (xs ++ [x]) = bump x (tally xs) := by simp [tally]
    have hput := put_filterMap x (xs.count x + 1) xs.eraseDups (nodup_eraseDups xs)
      (some ∘ fun y => (y, xs.count y)) fun k _ => ⟨_, rfl⟩
    rw [hstep, ih, bump, getD_get?_counts, ← List.filterMap_eq_map, hput,
      ← List.filterMap_eq_map, eraseDups_concat]
    apply List.filterMap_congr
    intro k _
    by_cases hk : k = x
    · simp [hk]
    · simp [hk, List.count_singleton, Ne.symm hk]

end EndpointAudit.Assoc
