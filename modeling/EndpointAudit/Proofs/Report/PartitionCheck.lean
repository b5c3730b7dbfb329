import EndpointAudit.Proofs.Data.Lookup
import EndpointAudit.Report.Partition

/-!
# What the check of a report accepts

The check makes three tests, one after the other: that every entry stands in the group of its
expression, that no expression has two groups, and that records and entries have the same
identities, each as often. It accepts exactly the reports that pass all three, whatever they were
built from, and what it lists when the last one fails is the difference of the two multisets.
-/

namespace EndpointAudit

namespace Identity

/-- `a` comes before `b`: by path, then by verb, then by expression. -/
def Before (a b : Identity) : Prop :=
  a.path < b.path ∨ a.path = b.path ∧
    (a.verb < b.verb ∨ a.verb = b.verb ∧ a.expression < b.expression)

theorem Before.irrefl (a : Identity) : ¬ a.Before a := by
  grind [Before]

theorem Before.trans {a b c : Identity} (hab : a.Before b) (hbc : b.Before c) : a.Before c := by
  grind [Before]

theorem eq_of_not_before {a b : Identity} (hab : ¬ a.Before b) (hba : ¬ b.Before a) : a = b := by
  cases a
  cases b
  grind [Before]

theorem le_iff (a b : Identity) : a.le b = true ↔ ¬ b.Before a := by
  grind [le, Before]

theorem le_trans {a b c : Identity} (hab : a.le b = true) (hbc : b.le c = true) :
    a.le c = true := by
  rw [le_iff] at hab hbc ⊢
  intro hca
  -- `a` is not after `b`, so it is before it or the same.
  by_cases hlt : a.Before b
  · exact hbc (hca.trans hlt)
  · rw [eq_of_not_before hlt hab] at hca
    exact hbc hca

private theorem le_total (a b : Identity) : (a.le b || b.le a) = true := by
  rw [Bool.or_eq_true, le_iff, le_iff]
  by_contra hboth
  rw [not_or, not_not, not_not] at hboth
  exact Before.irrefl a (hboth.2.trans hboth.1)

/-- `listed` has what occurs more often in `more` than in `less`, each once and in order. -/
structure IsExcess (more less listed : List Identity) : Prop where
  ascending : listed.Pairwise Before
  mem_iff : ∀ i, i ∈ listed ↔ less.count i < more.count i

theorem mem_excess (more less : List Identity) (i : Identity) :
    i ∈ excess more less ↔ less.count i < more.count i := by
  rw [excess, List.mem_mergeSort, List.mem_filter, List.mem_eraseDups, decide_eq_true_iff]
  refine ⟨And.right, fun hlt => ⟨?_, hlt⟩⟩
  exact List.count_pos_iff.mp (Nat.zero_lt_of_lt hlt)

private theorem nodup_excess (more less : List Identity) : (excess more less).Nodup := by
  apply (List.mergeSort_perm _ _).nodup_iff.mpr
  exact List.filter_sublist.nodup (Assoc.nodup_eraseDups more)

theorem isExcess_excess (more less : List Identity) :
    IsExcess more less (excess more less) where
  ascending := by
    have hsorted : (excess more less).Pairwise (le · · = true) :=
      List.pairwise_mergeSort @le_trans le_total _
    apply (hsorted.and (nodup_excess more less)).imp
    rintro a b ⟨hle, hne⟩
    by_contra hnot
    exact hne (eq_of_not_before hnot ((le_iff a b).mp hle))
  mem_iff := mem_excess more less

/-- Only one list has what is in excess and has it in order. -/
theorem IsExcess.unique {more less listed others : List Identity} (h : IsExcess more less listed)
    (h' : IsExcess more less others) : listed = others := by
  have hnodup : ∀ {l : List Identity}, l.Pairwise Before → l.Nodup := by
    intro l hl
    apply hl.imp
    rintro a _ hlt rfl
    exact Before.irrefl a hlt
  have hperm : listed.Perm others := by
    rw [List.perm_ext_iff_of_nodup (hnodup h.ascending) (hnodup h'.ascending)]
    intro i
    rw [h.mem_iff, h'.mem_iff]
  refine hperm.eq_of_pairwise ?_ h.ascending h'.ascending
  intro a b _ _ hab hba
  exact absurd (hab.trans hba) (Before.irrefl a)

theorem sameCounts_iff_perm (xs ys : List Identity) : sameCounts xs ys = true ↔ xs.Perm ys := by
  simp only [sameCounts, List.all_eq_true, List.mem_append, beq_iff_eq, List.perm_iff_count]
  refine ⟨fun hsame i => ?_, fun hsame i _ => hsame i⟩
  by_cases hi : i ∈ xs ∨ i ∈ ys
  · exact hsame i hi
  · rw [not_or] at hi
    rw [List.count_eq_zero.mpr hi.1, List.count_eq_zero.mpr hi.2]

/-- Nothing is in excess on either side exactly where both lists are the same multiset. -/
theorem excess_eq_nil_iff_perm (more less : List Identity) :
    (excess more less = [] ∧ excess less more = []) ↔ more.Perm less := by
  simp only [List.eq_nil_iff_forall_not_mem, mem_excess, Nat.not_lt, List.perm_iff_count]
  constructor
  · rintro ⟨hmore, hless⟩ i
    exact Nat.le_antisymm (hmore i) (hless i)
  · intro hsame
    exact ⟨fun i => Nat.le_of_eq (hsame i), fun i => Nat.le_of_eq (hsame i).symm⟩

/-- Where the counts differ, something is in excess on one side. -/
theorem sameCounts_iff_excess_eq_nil (xs ys : List Identity) :
    sameCounts xs ys = true ↔ excess xs ys = [] ∧ excess ys xs = [] := by
  rw [sameCounts_iff_perm, excess_eq_nil_iff_perm]

end Identity

/-- Only records and entries that differ are said not to be partitioned. -/
theorem PartitionError.message_eq_iff (error : PartitionError) :
    error.message = "Report groups do not partition the endpoints" ↔
      ∃ missing extra, error = .mismatch missing extra := by
  -- The two other messages begin with another letter.
  constructor
  · intro hmessage
    have hfirst : error.message.toList.head? = some 'R' := by simp [hmessage]
    cases error with
    | mismatch missing extra => exact ⟨missing, extra, rfl⟩
    | misfiled entry group =>
      unfold message at hfirst
      simp at hfirst
    | repeated expressions =>
      unfold message at hfirst
      simp at hfirst
  · rintro ⟨missing, extra, rfl⟩
    rfl

namespace Report

/-- Every entry of the report stands in the group of its expression, and no expression has two
groups. -/
structure WellFiled (report : Report) : Prop where
  filed : ∀ g ∈ report.groups, ∀ e ∈ g.endpoints, e.authExpression = g.authExpression
  distinct : (report.groups.map (·.authExpression)).Nodup

theorem misfiled?_eq_none_iff (groups : List Group) : misfiled? groups = none ↔
    ∀ g ∈ groups, ∀ e ∈ g.endpoints, e.authExpression = g.authExpression := by
  simp [misfiled?]

private theorem misfiled_of_misfiled?_eq_some {groups : List Group} {error : PartitionError}
    (h : misfiled? groups = some error) : ∃ entry group, error = .misfiled entry group := by
  obtain ⟨g, -, hg⟩ := List.exists_of_findSome?_eq_some h
  obtain ⟨entry, -, rfl⟩ := Option.map_eq_some_iff.mp hg
  exact ⟨entry, g.authExpression, rfl⟩

private theorem mem_repeated {α : Type} [BEq α] [LawfulBEq α] (xs : List α) (x : α) :
    x ∈ repeated xs ↔ 1 < xs.count x := by
  simp only [repeated, Assoc.tally_eq, List.mem_map, List.mem_filter, List.mem_eraseDups,
    decide_eq_true_eq]
  constructor
  · rintro ⟨_, ⟨⟨y, -, rfl⟩, hlt⟩, rfl⟩
    exact hlt
  · intro hlt
    have hmem : x ∈ xs := List.count_pos_iff.mp (Nat.zero_lt_of_lt hlt)
    exact ⟨_, ⟨⟨x, hmem, rfl⟩, hlt⟩, rfl⟩

theorem repeated_eq_nil_iff {α : Type} [BEq α] [LawfulBEq α] (xs : List α) :
    repeated xs = [] ↔ xs.Nodup := by
  simp only [List.eq_nil_iff_forall_not_mem, mem_repeated, Nat.not_lt,
    List.nodup_iff_count_le_one]

variable (records : List EndpointRecord) {report : Report}

/-- A report that is well filed is compared with the records, and nothing else can go wrong. -/
theorem checkPartition_of_wellFiled (h : report.WellFiled) :
    let expected := records.map Identity.ofRecord
    let seen := report.endpoints.map Identity.ofEntry
    checkPartition records report =
      if Identity.sameCounts expected seen then .ok ()
      else .error (.mismatch (Identity.excess expected seen) (Identity.excess seen expected)) := by
  have hmisfiled : misfiled? report.groups = none := (misfiled?_eq_none_iff _).mpr h.filed
  have hrepeated : repeated (report.groups.map (·.authExpression)) = [] :=
    (repeated_eq_nil_iff _).mpr h.distinct
  simp only [checkPartition, hmisfiled, hrepeated, List.isEmpty_nil, Bool.not_true,
    Bool.false_eq_true, if_false]

/-- A report that is not well filed is refused before it is compared. -/
theorem checkPartition_of_not_wellFiled (h : ¬ report.WellFiled) :
    ∃ error, checkPartition records report = .error error ∧
      ∀ missing extra, error ≠ .mismatch missing extra := by
  unfold checkPartition
  cases hmisfiled : misfiled? report.groups with
  | some error =>
    obtain ⟨entry, group, rfl⟩ := misfiled_of_misfiled?_eq_some hmisfiled
    exact ⟨_, rfl, fun _ _ heq => nomatch heq⟩
  | none =>
    have hrepeated : repeated (report.groups.map (·.authExpression)) ≠ [] := by
      intro hnil
      exact h ⟨(misfiled?_eq_none_iff _).mp hmisfiled, (repeated_eq_nil_iff _).mp hnil⟩
    refine ⟨.repeated (repeated (report.groups.map (·.authExpression))), ?_, nofun⟩
    simp [hrepeated]

variable (report : Report)

private theorem checkPartition_eq_ok_iff :
    checkPartition records report = .ok () ↔ report.WellFiled ∧
    (report.endpoints.map Identity.ofEntry).Perm (records.map Identity.ofRecord) := by
  by_cases hfiled : report.WellFiled
  · rw [checkPartition_of_wellFiled records hfiled, List.perm_comm,
      ← Identity.sameCounts_iff_perm]
    simp [hfiled]
  · obtain ⟨error, hcheck, -⟩ := checkPartition_of_not_wellFiled records hfiled
    simp [hcheck, hfiled]

private theorem checkPartition_eq_mismatch_iff (missing extra : List Identity) :
    checkPartition records report = .error (.mismatch missing extra) ↔ report.WellFiled ∧
      Identity.IsExcess (records.map Identity.ofRecord) (report.endpoints.map Identity.ofEntry)
        missing ∧
      Identity.IsExcess (report.endpoints.map Identity.ofEntry) (records.map Identity.ofRecord)
        extra ∧ (missing ≠ [] ∨ extra ≠ []) := by
  by_cases hfiled : report.WellFiled
  · rw [checkPartition_of_wellFiled records hfiled]
    have hmissing := Identity.isExcess_excess (records.map Identity.ofRecord)
      (report.endpoints.map Identity.ofEntry)
    have hextra := Identity.isExcess_excess (report.endpoints.map Identity.ofEntry)
      (records.map Identity.ofRecord)
    constructor
    · intro hcheck
      split at hcheck
      · cases hcheck
      · next hdiffer =>
        cases hcheck
        rw [Identity.sameCounts_iff_excess_eq_nil] at hdiffer
        exact ⟨hfiled, hmissing, hextra, Decidable.not_and_iff_not_or_not.mp hdiffer⟩
    · rintro ⟨-, hmissing', hextra', hsome⟩
      rw [hmissing'.unique hmissing, hextra'.unique hextra] at hsome ⊢
      apply if_neg
      rw [Identity.sameCounts_iff_excess_eq_nil]
      exact Decidable.not_and_iff_not_or_not.mpr hsome
  · obtain ⟨error, hcheck, hother⟩ := checkPartition_of_not_wellFiled records hfiled
    simp [hcheck, hfiled, hother]

/-- **The check is exact.** It accepts the reports that are well filed and have the identities of
the records, each as often. It refuses a report because of its endpoints exactly where it is well
filed and something is missing or extra, and then lists precisely that. -/
theorem checkPartition_exact (records : List EndpointRecord) (report : Report) :
    let expected := records.map Identity.ofRecord
    let seen := report.endpoints.map Identity.ofEntry
    (checkPartition records report = .ok () ↔ report.WellFiled ∧ seen.Perm expected) ∧
    (∀ missing extra, checkPartition records report = .error (.mismatch missing extra) ↔
      report.WellFiled ∧ Identity.IsExcess expected seen missing ∧
        Identity.IsExcess seen expected extra ∧ (missing ≠ [] ∨ extra ≠ [])) ∧
    ∀ error : PartitionError, error.message = "Report groups do not partition the endpoints" ↔
      ∃ missing extra, error = .mismatch missing extra :=
  ⟨checkPartition_eq_ok_iff records report, checkPartition_eq_mismatch_iff records report,
    PartitionError.message_eq_iff⟩

-- Both have `/a` and `/b`, but not as often.
example :
    let record (path : String) : EndpointRecord := { path }
    let entry (path : String) : Entry := { path, verb := .get }
    checkPartition [record "/a", record "/a", record "/b"]
      ⟨default, [⟨"None", [entry "/b", entry "/a", entry "/b"]⟩]⟩ =
        .error (.mismatch [⟨"/a", "GET", "None"⟩] [⟨"/b", "GET", "None"⟩]) := by
  decide +kernel

end Report

end EndpointAudit
