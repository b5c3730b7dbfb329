import EndpointAudit.Proofs.Report.Grouping
import EndpointAudit.Proofs.Report.PartitionCheck
import EndpointAudit.Scan

/-!
# Reports and the check that they pass

The report on a list of records files every entry under its own expression and gives no expression
two groups, so all that its check can find is that records and entries are not the same. They
differ where the expression of a record is blank, which the entry replaces and the record keeps:
the check accepts the report if no record has such an expression, and otherwise lists exactly the
records that do.
-/

namespace EndpointAudit

namespace Identity

/-- The identity of a record's entry. -/
theorem ofEntry_snapshot (r : EndpointRecord) : ofEntry r.snapshot =
    { ofRecord r with expression := Entry.expressionOf r.authExpression } := rfl

end Identity

namespace Report

private theorem ofRecords_endpoints_perm (now : Moment) (records : List EndpointRecord) :
    (ofRecords now records).endpoints.Perm (records.map (·.snapshot)) :=
  groupEntries_endpoints_perm _

theorem wellFiled_ofRecords (now : Moment) (records : List EndpointRecord) :
    (ofRecords now records).WellFiled := by
  have hstable := stablePartition_groupEntries (records.map EndpointRecord.snapshot)
  exact ⟨fun _ hg _ he => hstable.filed hg he, hstable.distinct⟩

/-- Two maps that differ on the elements with `p` only, and there never meet: the elements with `p`
are what the first one has in excess. -/
private theorem count_map_lt_iff {α β : Type} [BEq β] [LawfulBEq β] {f g : α → β} {p : α → Bool}
    {xs : List α} (hsame : ∀ x ∈ xs, p x = false → f x = g x)
    (hapart : ∀ x ∈ xs, ∀ y ∈ xs, p x = true → p y = true → f x ≠ g y) (b : β) :
    (xs.map g).count b < (xs.map f).count b ↔ ∃ x ∈ xs, p x = true ∧ b = f x := by
  have hsplit : ∀ h : α → β, (xs.map h).count b =
      ((xs.filter p).map h).count b + ((xs.filter (!p ·)).map h).count b := by
    intro h
    rw [← List.count_append, ← List.map_append]
    exact ((List.filter_append_perm p xs).map h).symm.count_eq b
  have hrest : (xs.filter (!p ·)).map f = (xs.filter (!p ·)).map g := by
    apply List.map_congr_left
    intro x hx
    obtain ⟨hmem, hp⟩ := List.mem_filter.mp hx
    exact hsame x hmem (by simpa using hp)
  rw [hsplit f, hsplit g, hrest, Nat.add_lt_add_iff_right]
  constructor
  · intro hlt
    have hpos := List.count_pos_iff.mp (Nat.zero_lt_of_lt hlt)
    obtain ⟨x, hx, rfl⟩ := List.mem_map.mp hpos
    obtain ⟨hmem, hp⟩ := List.mem_filter.mp hx
    exact ⟨x, hmem, hp, rfl⟩
  · rintro ⟨x, hmem, hp, rfl⟩
    have hnone : ((xs.filter p).map g).count (f x) = 0 := by
      rw [List.count_eq_zero]
      intro hin
      obtain ⟨y, hy, heq⟩ := List.mem_map.mp hin
      obtain ⟨hmemy, hpy⟩ := List.mem_filter.mp hy
      exact hapart x hmem y hmemy hp hpy heq.symm
    rw [hnone, List.count_pos_iff]
    exact List.mem_map.mpr ⟨x, List.mem_filter.mpr ⟨hmem, hp⟩, rfl⟩

/-! ## Records and their entries -/

theorem isBlankText_noAuthorization : Text.isBlankText noAuthorization = false := by decide

theorem ofEntry_snapshot_of_blank {r : EndpointRecord}
    (h : Text.isBlankText r.authExpression = true) : Identity.ofEntry r.snapshot =
      { Identity.ofRecord r with expression := noAuthorization } := by
  rw [Identity.ofEntry_snapshot, Entry.expressionOf, if_pos h]

theorem ofEntry_snapshot_of_not_blank {r : EndpointRecord}
    (h : Text.isBlankText r.authExpression = false) :
    Identity.ofEntry r.snapshot = Identity.ofRecord r := by
  rw [Identity.ofEntry_snapshot, Entry.expressionOf, h]
  rfl

/-- A blank expression is that of no entry. -/
theorem ofRecord_ne_ofEntry {r r' : EndpointRecord} (h : Text.isBlankText r.authExpression = true)
    (h' : Text.isBlankText r'.authExpression = true) :
    Identity.ofRecord r ≠ Identity.ofEntry r'.snapshot := by
  rw [ofEntry_snapshot_of_blank h']
  intro heq
  have hexpression : r.authExpression = noAuthorization := congrArg Identity.expression heq
  rw [hexpression, isBlankText_noAuthorization] at h
  cases h

variable (now : Moment) (records : List EndpointRecord)

theorem count_seen (i : Identity) :
    ((ofRecords now records).endpoints.map Identity.ofEntry).count i =
      (records.map fun r => Identity.ofEntry r.snapshot).count i := by
  rw [((ofRecords_endpoints_perm now records).map Identity.ofEntry).count_eq, List.map_map]
  rfl

theorem mem_missing (i : Identity) :
    i ∈ Identity.excess (records.map Identity.ofRecord)
        ((ofRecords now records).endpoints.map Identity.ofEntry) ↔
      ∃ r ∈ records, Text.isBlankText r.authExpression = true ∧ i = Identity.ofRecord r := by
  rw [Identity.mem_excess, count_seen]
  apply count_map_lt_iff
  · intro r _ hr
    exact (ofEntry_snapshot_of_not_blank hr).symm
  · intro r _ r' _ hr hr'
    exact ofRecord_ne_ofEntry hr hr'

theorem mem_extra (i : Identity) :
    i ∈ Identity.excess ((ofRecords now records).endpoints.map Identity.ofEntry)
        (records.map Identity.ofRecord) ↔
      ∃ r ∈ records, Text.isBlankText r.authExpression = true ∧
        i = { Identity.ofRecord r with expression := noAuthorization } := by
  have hiff : i ∈ Identity.excess ((ofRecords now records).endpoints.map Identity.ofEntry)
      (records.map Identity.ofRecord) ↔
      ∃ r ∈ records, Text.isBlankText r.authExpression = true ∧
        i = Identity.ofEntry r.snapshot := by
    rw [Identity.mem_excess, count_seen]
    apply count_map_lt_iff
    · intro r _ hr
      exact ofEntry_snapshot_of_not_blank hr
    · intro r _ r' _ hr hr'
      exact (ofRecord_ne_ofEntry hr' hr).symm
  rw [hiff]
  refine exists_congr fun r => and_congr_right fun _ => and_congr_right fun hr => ?_
  rw [ofEntry_snapshot_of_blank hr]

end Report

namespace Scan

open Report

variable (now : Moment) (records : List EndpointRecord)

theorem sameCounts_iff_not_blank :
    Identity.sameCounts (records.map Identity.ofRecord)
        ((ofRecords now records).endpoints.map Identity.ofEntry) = true ↔
      ∀ r ∈ records, Text.isBlankText r.authExpression = false := by
  simp only [Identity.sameCounts_iff_excess_eq_nil, List.eq_nil_iff_forall_not_mem, mem_missing,
    mem_extra]
  constructor
  · rintro ⟨hmissing, -⟩ r hr
    by_contra hblank
    exact hmissing (Identity.ofRecord r) ⟨r, hr, by simpa using hblank, rfl⟩
  · intro hall
    constructor
    all_goals
      rintro i ⟨r, hr, hblank, -⟩
      rw [hall r hr] at hblank
      cases hblank

/-- The check accepts the report on records without blank expressions. -/
theorem buildReport_of_not_blank (h : ∀ r ∈ records, Text.isBlankText r.authExpression = false) :
    buildReport now records = .ok (ofRecords now records) := by
  rw [buildReport, checkPartition_of_wellFiled records (wellFiled_ofRecords now records),
    if_pos ((sameCounts_iff_not_blank now records).mpr h)]
  rfl

/-- The check refuses the report on records with blank expressions, and names them. -/
theorem buildReport_of_blank (h : ∃ r ∈ records, Text.isBlankText r.authExpression = true) :
    ∃ missing extra, buildReport now records = .error (.mismatch missing extra) ∧
      (∀ i, i ∈ missing ↔
        ∃ r ∈ records, Text.isBlankText r.authExpression = true ∧ i = Identity.ofRecord r) ∧
      ∀ i, i ∈ extra ↔ ∃ r ∈ records, Text.isBlankText r.authExpression = true ∧
        i = { Identity.ofRecord r with expression := noAuthorization } := by
  obtain ⟨r, hr, hblank⟩ := h
  have hnot : ¬ ∀ r ∈ records, Text.isBlankText r.authExpression = false := by
    intro hall
    rw [hall r hr] at hblank
    cases hblank
  refine ⟨_, _, ?_, mem_missing now records, mem_extra now records⟩
  rw [buildReport, checkPartition_of_wellFiled records (wellFiled_ofRecords now records),
    if_neg (fun hsame => hnot ((sameCounts_iff_not_blank now records).mp hsame))]
  rfl

/-- Making a record replaces an expression that is empty, but no other that is blank. -/
theorem isBlankText_create (r : EndpointRecord) :
    Text.isBlankText r.create.authExpression = true ↔
      r.authExpression ≠ "" ∧ Text.isBlankText r.authExpression = true := by
  unfold EndpointRecord.create
  by_cases h : r.authExpression = ""
  · simp [h, isBlankText_noAuthorization]
  · simp [h]

/-- **When a report passes its own check.** The report on records as they are made is accepted
unless one was given an expression that is blank and not empty. Then it is refused: the records
that keep such an expression are missing, and their entries without authorization are extra. -/
theorem buildReport_outcome (now : Moment) (given : List EndpointRecord) :
    let records := given.map EndpointRecord.create
    (buildReport now records = .ok (ofRecords now records) ↔
      ∀ r ∈ given, r.authExpression = "" ∨ Text.isBlankText r.authExpression = false) ∧
    ((∃ r ∈ given, r.authExpression ≠ "" ∧ Text.isBlankText r.authExpression = true) →
      ∃ missing extra, buildReport now records = .error (.mismatch missing extra) ∧
        (∀ i, i ∈ missing ↔
          ∃ r ∈ records, Text.isBlankText r.authExpression = true ∧ i = Identity.ofRecord r) ∧
        ∀ i, i ∈ extra ↔ ∃ r ∈ records, Text.isBlankText r.authExpression = true ∧
          i = { Identity.ofRecord r with expression := noAuthorization }) := by
  intro records
  have hblank : (∃ r ∈ records, Text.isBlankText r.authExpression = true) ↔
      ∃ r ∈ given, r.authExpression ≠ "" ∧ Text.isBlankText r.authExpression = true := by
    simp only [records, List.mem_map, exists_exists_and_eq_and, isBlankText_create]
  refine ⟨⟨?accepted, ?accepts⟩, fun h => buildReport_of_blank now records (hblank.mpr h)⟩
  case accepted =>
    intro hok r hr
    by_contra hkept
    rw [not_or, Bool.not_eq_false] at hkept
    obtain ⟨missing, extra, herror, -⟩ :=
      buildReport_of_blank now records (hblank.mpr ⟨r, hr, hkept⟩)
    rw [hok] at herror
    cases herror
  case accepts =>
    intro hall
    apply buildReport_of_not_blank
    intro r hr
    rw [← Bool.not_eq_true]
    intro hr'
    obtain ⟨r', hmem, hne, hblank'⟩ := hblank.mp ⟨r, hr, hr'⟩
    rcases hall r' hmem with hempty | hnot
    · exact hne hempty
    · rw [hnot] at hblank'
      cases hblank'

/-- A record with the expression `" "` is refused. -/
theorem buildReport_space :
    buildReport ⟨2026, 3, 1, 12, 0, 0, 0, some 0⟩
      [EndpointRecord.create { path := "/health", authExpression := " " }] =
        .error (.mismatch [⟨"/health", "GET", " "⟩] [⟨"/health", "GET", "None"⟩]) := by
  decide +kernel

end Scan

end EndpointAudit
