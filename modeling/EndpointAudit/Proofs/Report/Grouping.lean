import EndpointAudit.Proofs.Data.Assoc
import EndpointAudit.Report.Basic
import Mathlib.Data.Finset.Card
import Mathlib.Data.Finset.Dedup

/-!
# Groups of entries

Grouping entries one after the other leaves one group for every expression, in order of first
occurrence, with the entries of that expression in the order in which they were given. So nothing
is lost and nothing is listed twice, and grouping the entries of the groups again changes nothing.
-/

namespace EndpointAudit

/-- The entries with a given expression, as a group. -/
def groupOf (entries : List Entry) (expression : String) : Group :=
  { authExpression := expression
    endpoints := entries.filter fun e => e.authExpression == expression }

@[simp] theorem groupOf_authExpression (entries : List Entry) (expression : String) :
    (groupOf entries expression).authExpression = expression := rfl

private theorem groupOf_concat_self (entries : List Entry) (e : Entry) :
    groupOf (entries ++ [e]) e.authExpression =
      { groupOf entries e.authExpression with
        endpoints := (groupOf entries e.authExpression).endpoints ++ [e] } := by
  simp [groupOf]

theorem groupOf_concat_of_ne {e : Entry} {expression : String} (h : e.authExpression ≠ expression)
    (entries : List Entry) : groupOf (entries ++ [e]) expression = groupOf entries expression := by
  simp [groupOf, h]

/-- An entry goes to the end of its own group, or into a group behind all others. -/
theorem addToGroups_map (e : Entry) (entries : List Entry) (expressions : List String)
    (hnodup : expressions.Nodup)
    (hnew : e.authExpression ∉ expressions →
      e.authExpression ∉ entries.map (·.authExpression)) :
    addToGroups e (expressions.map (groupOf entries)) =
      (if expressions.contains e.authExpression then expressions
        else expressions ++ [e.authExpression]).map (groupOf (entries ++ [e])) := by
  induction expressions with
  | nil =>
    have hnone : entries.filter (fun e' => e'.authExpression == e.authExpression) = [] := by
      rw [List.filter_eq_nil_iff]
      intro e' he' heq
      exact hnew (by simp) (List.mem_map.mpr ⟨e', he', by simpa using heq⟩)
    simp [addToGroups, groupOf, hnone]
  | cons x xs ih =>
    rw [List.nodup_cons] at hnodup
    by_cases hx : x = e.authExpression
    · have hrest : xs.map (groupOf entries) = xs.map (groupOf (entries ++ [e])) := by
        apply List.map_congr_left
        intro y hy
        exact (groupOf_concat_of_ne (fun heq => hnodup.1 (hx ▸ heq ▸ hy)) entries).symm
      have hcontains : (x :: xs).contains e.authExpression = true := by simp [hx]
      rw [if_pos hcontains, List.map_cons, List.map_cons, addToGroups, groupOf_authExpression,
        if_pos hx, hrest, hx, groupOf_concat_self]
      rfl
    · have hrest := ih hnodup.2 fun hmem => hnew (by simp [hmem, Ne.symm hx])
      have hcontains : (x :: xs).contains e.authExpression = xs.contains e.authExpression := by
        simp [Ne.symm hx]
      rw [List.map_cons, addToGroups, groupOf_authExpression, if_neg hx, hrest, hcontains,
        ← groupOf_concat_of_ne (Ne.symm hx) entries]
      split <;> rfl

theorem groupEntries_append (entries more : List Entry) : groupEntries (entries ++ more) =
    more.foldl (fun groups e => addToGroups e groups) (groupEntries entries) :=
  List.foldl_append

theorem groupEntries_concat (entries : List Entry) (e : Entry) :
    groupEntries (entries ++ [e]) = addToGroups e (groupEntries entries) :=
  groupEntries_append entries [e]

/-- Grouping leaves one group for every expression, in order of first occurrence. -/
theorem groupEntries_eq (entries : List Entry) : groupEntries entries =
    (entries.map (·.authExpression)).eraseDups.map (groupOf entries) := by
  induction entries using List.reverseRecOn with
  | nil => rfl
  | append_singleton entries e ih =>
    rw [groupEntries_concat, ih, addToGroups_map e entries _ (Assoc.nodup_eraseDups _) (by simp),
      List.map_append, List.map_cons, List.map_nil, Assoc.eraseDups_concat]

theorem groupEntries_expressions (entries : List Entry) :
    (groupEntries entries).map (·.authExpression) =
      (entries.map (·.authExpression)).eraseDups := by
  rw [groupEntries_eq, List.map_map]
  exact List.map_id _

private theorem addToGroups_endpoints_perm (e : Entry) (groups : List Group) :
    ((addToGroups e groups).flatMap (·.endpoints)).Perm
      (groups.flatMap (·.endpoints) ++ [e]) := by
  induction groups with
  | nil => simp [addToGroups]
  | cons g groups ih =>
    rw [addToGroups]
    split
    · simp only [List.flatMap_cons, List.append_assoc]
      exact (List.perm_append_comm).append_left g.endpoints
    · simp only [List.flatMap_cons, List.append_assoc]
      exact ih.append_left g.endpoints

/-- Grouping loses no entry and repeats none. -/
theorem groupEntries_endpoints_perm (entries : List Entry) :
    ((groupEntries entries).flatMap (·.endpoints)).Perm entries := by
  induction entries using List.reverseRecOn with
  | nil => exact .nil
  | append_singleton entries e ih =>
    rw [groupEntries_concat]
    exact (addToGroups_endpoints_perm e _).trans (ih.append_right [e])

/-! ## Grouping again -/

private theorem addToGroups_of_new {e : Entry} {groups : List Group}
    (hnew : e.authExpression ∉ groups.map (·.authExpression)) :
    addToGroups e groups =
      groups ++ [{ authExpression := e.authExpression, endpoints := [e] }] := by
  induction groups with
  | nil => rfl
  | cons g groups ih =>
    rw [List.map_cons, List.mem_cons, not_or] at hnew
    rw [addToGroups, if_neg (Ne.symm hnew.1), ih hnew.2, List.cons_append]

private theorem addToGroups_concat {e : Entry} {groups : List Group} (members : List Entry)
    (hnew : e.authExpression ∉ groups.map (·.authExpression)) :
    addToGroups e (groups ++ [{ authExpression := e.authExpression, endpoints := members }]) =
      groups ++ [{ authExpression := e.authExpression, endpoints := members ++ [e] }] := by
  induction groups with
  | nil => simp [addToGroups]
  | cons g groups ih =>
    rw [List.map_cons, List.mem_cons, not_or] at hnew
    rw [List.cons_append, addToGroups, if_neg (Ne.symm hnew.1), ih hnew.2, List.cons_append]

/-- The members of a group that is not there yet come together in a group at the end. -/
theorem foldl_addToGroups_of_new {groups : List Group} {g : Group}
    (hnew : g.authExpression ∉ groups.map (·.authExpression)) (hfull : g.endpoints ≠ [])
    (hfiled : ∀ e ∈ g.endpoints, e.authExpression = g.authExpression) :
    g.endpoints.foldl (fun groups e => addToGroups e groups) groups = groups ++ [g] := by
  obtain ⟨expression, members⟩ := g
  induction members using List.reverseRecOn with
  | nil => exact absurd rfl hfull
  | append_singleton members e ih =>
    have he : e.authExpression = expression := hfiled e (by simp)
    subst he
    rw [List.foldl_append, List.foldl_cons, List.foldl_nil]
    -- The first member opens the group, every other one goes to its end.
    by_cases hmembers : members = []
    · rw [hmembers]
      exact addToGroups_of_new hnew
    · have hrest := ih hnew hmembers fun e' he' => hfiled e' (List.mem_append_left _ he')
      rw [hrest]
      exact addToGroups_concat members hnew

/-- Groups that keep the expressions apart come back when their entries are grouped. -/
theorem groupEntries_flatMap {groups : List Group}
    (hdistinct : (groups.map (·.authExpression)).Nodup) (hfull : ∀ g ∈ groups, g.endpoints ≠ [])
    (hfiled : ∀ g ∈ groups, ∀ e ∈ g.endpoints, e.authExpression = g.authExpression) :
    groupEntries (groups.flatMap (·.endpoints)) = groups := by
  induction groups using List.reverseRecOn with
  | nil => rfl
  | append_singleton groups g ih =>
    rw [List.map_append, List.map_singleton, ← List.concat_eq_append, List.nodup_concat]
      at hdistinct
    have hrest := ih hdistinct.2 (fun g' hg' => hfull g' (List.mem_append_left _ hg'))
      fun g' hg' => hfiled g' (List.mem_append_left _ hg')
    rw [List.flatMap_append, groupEntries_append, hrest, List.flatMap_singleton]
    exact foldl_addToGroups_of_new hdistinct.1 (hfull g (by simp)) (hfiled g (by simp))

/-! ## Stable partitions -/

/-- Groups that hold the entries of a list, one group for each expression, in order of first
occurrence and with the entries in the order of the list. -/
structure StablePartition (entries : List Entry) (groups : List Group) : Prop where
  distinct : (groups.map (·.authExpression)).Nodup
  ordered : (groups.map (·.authExpression)).Pairwise fun a b =>
    (entries.map (·.authExpression)).idxOf a < (entries.map (·.authExpression)).idxOf b
  inhabited : ∀ g ∈ groups, g.endpoints ≠ []
  members : ∀ g ∈ groups,
    g.endpoints = entries.filter fun e => e.authExpression == g.authExpression
  perm : (groups.flatMap (·.endpoints)).Perm entries

theorem StablePartition.filed {entries : List Entry} {groups : List Group}
    (h : StablePartition entries groups) {g : Group} (hg : g ∈ groups) {e : Entry}
    (he : e ∈ g.endpoints) : e.authExpression = g.authExpression := by
  rw [h.members g hg, List.mem_filter] at he
  exact beq_iff_eq.mp he.2

theorem StablePartition.groupEntries_eq {entries : List Entry} {groups : List Group}
    (h : StablePartition entries groups) : groupEntries (groups.flatMap (·.endpoints)) = groups :=
  groupEntries_flatMap h.distinct h.inhabited fun _ hg _ he => h.filed hg he

theorem stablePartition_groupEntries (entries : List Entry) :
    StablePartition entries (groupEntries entries) where
  distinct := by
    rw [groupEntries_expressions]
    exact Assoc.nodup_eraseDups _
  ordered := by
    rw [groupEntries_expressions]
    exact Assoc.pairwise_idxOf_eraseDups _
  inhabited := by
    intro g hg
    rw [groupEntries_eq, List.mem_map] at hg
    obtain ⟨expression, hmem, rfl⟩ := hg
    obtain ⟨e, he, rfl⟩ := List.mem_map.mp (List.mem_eraseDups.mp hmem)
    exact List.ne_nil_of_mem (List.mem_filter.mpr ⟨he, beq_self_eq_true _⟩)
  members := by
    intro g hg
    rw [groupEntries_eq, List.mem_map] at hg
    obtain ⟨expression, -, rfl⟩ := hg
    rfl
  perm := groupEntries_endpoints_perm entries

private theorem length_groupEntries (entries : List Entry) :
    (groupEntries entries).length = (entries.map (·.authExpression)).toFinset.card := by
  have hsame : (entries.map (·.authExpression)).toFinset =
      (entries.map (·.authExpression)).eraseDups.toFinset := by
    ext expression
    rw [List.mem_toFinset, List.mem_toFinset, List.mem_eraseDups]
  rw [hsame, List.toFinset_card_of_nodup (Assoc.nodup_eraseDups _), ← groupEntries_expressions,
    List.length_map]

/-- **Grouping is a stable partition.** Grouping the entries of the groups again gives the same
groups. So a report counts as many endpoints as there are records, and as many groups as their
entries have expressions. -/
theorem groupEntries_stablePartition (entries : List Entry) (now : Moment)
    (records : List EndpointRecord) :
    StablePartition entries (groupEntries entries) ∧
    groupEntries ((groupEntries entries).flatMap (·.endpoints)) = groupEntries entries ∧
    (Report.ofRecords now records).totalEndpoints = records.length ∧
    (Report.ofRecords now records).uniqueExpressions =
      (records.map (·.snapshot.authExpression)).toFinset.card := by
  have hstable := stablePartition_groupEntries entries
  have hperm := groupEntries_endpoints_perm (records.map EndpointRecord.snapshot)
  refine ⟨hstable, hstable.groupEntries_eq, ?total, ?unique⟩
  case total => exact hperm.length_eq.trans (List.length_map _)
  case unique =>
    have hlength := length_groupEntries (records.map EndpointRecord.snapshot)
    rw [List.map_map] at hlength
    exact hlength

-- Two blank expressions and one that is not: the blank ones are in one group, at the first place.
example :
    let record (path expression : String) : EndpointRecord := { path, authExpression := expression }
    (groupEntries ([record "/a" " ", record "/b" "admin", record "/c" ""].map (·.snapshot))).map
      (fun g => (g.authExpression, g.endpoints.map (·.path))) =
        [("None", ["/a", "/c"]), ("admin", ["/b"])] := by
  decide +kernel

end EndpointAudit
