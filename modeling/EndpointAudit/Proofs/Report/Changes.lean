import EndpointAudit.Proofs.Report.Diff
import EndpointAudit.Report.Render

/-!
# Descriptions of changes

Whether an endpoint has changed is decided by comparing one key of all fields that count; what has
changed is described field by field. The two agree: there is something to describe exactly where
the keys differ, so no row of a table that shows a changed endpoint is left without details.
-/

namespace EndpointAudit

/-! ## Text that is not empty -/

namespace Text

private theorem escapeTags_ne_nil {slashes : Nat} {cs : List Char} (h : 0 < slashes ∨ cs ≠ []) :
    escapeTags slashes cs ≠ [] := by
  fun_induction escapeTags slashes cs with
  | case1 slashes => simpa [Nat.pos_iff_ne_zero] using h
  | case2 slashes rest ih => exact ih (.inl (Nat.succ_pos slashes))
  | case3 => simp
  | case4 => simp

private theorem escape_ne_empty {text : String} (h : text ≠ "") : escape text ≠ "" := by
  have hescaped : escapeTags 0 text.toList ≠ [] := by
    apply escapeTags_ne_nil
    simpa using h
  simp only [escape, ne_eq, String.ofList_eq_empty_iff]
  split
  · simp
  · exact hescaped

private theorem join_ne_empty (sep : String) {parts : List String} (hparts : parts ≠ [])
    (h : ∀ part ∈ parts, part ≠ "") : join sep parts ≠ "" := by
  obtain ⟨part, rest, rfl⟩ := List.exists_cons_of_ne_nil hparts
  have hpart : part ≠ "" := h part (by simp)
  cases rest with
  | nil => simpa [join] using hpart
  | cons next rest => simp [join, hpart]

end Text

namespace Render

/-! ## Fields -/

private theorem flag_injective : Function.Injective flag := by
  intro a b
  cases a <;> cases b <;> simp [flag]

private theorem policyText_injective :
    Function.Injective fun policy : Option SessionPolicy => (policy.map (·.name)).getD "-" := by
  have hnamed : ∀ policy : SessionPolicy, policy.name ≠ "-" := by
    intro policy
    cases policy <;> decide
  intro a b h
  cases a with
  | none =>
    cases b with
    | none => rfl
    | some policy => exact absurd h.symm (hnamed policy)
  | some policy =>
    cases b with
    | none => exact absurd h (hnamed policy)
    | some policy' => exact congrArg some (SessionPolicy.name_injective h)

/-- The fields that a description names, as it shows them. -/
def shownFields (e : Entry) : List (String × String) :=
  [("auth_expression", e.authExpression), ("verb", e.verb.name),
    ("api_key_required", flag e.apiKeyRequired),
    ("basic_auth_required", flag e.basicAuthRequired), ("csrf_enabled", flag e.csrfEnabled),
    ("session_management_policy", sessionCell e)]

/-- A line for each field that is shown in another way than before. -/
def fieldLines (old new : Entry) : List String :=
  ((shownFields old).zip (shownFields new)).flatMap fun (before, after) =>
    if before.2 = after.2 then [] else [before.1 ++ ": " ++ before.2 ++ " → " ++ after.2]

/-- The features that the second entry has and the first has not, each once and in order. -/
def gainedFeatures (old new : Entry) : List String :=
  ((TagSet.ofList new.features).diff (TagSet.ofList old.features)).toList

theorem mem_gainedFeatures (old new : Entry) (feature : String) :
    feature ∈ gainedFeatures old new ↔ feature ∈ new.features ∧ feature ∉ old.features := by
  rw [gainedFeatures, ← TagSet.mem_def, TagSet.mem_diff, TagSet.mem_ofList, TagSet.mem_ofList]

/-- A field is shown in another way exactly where its values differ. -/
theorem fieldChange_eq {α : Type} [DecidableEq α] {text : α → String}
    (htext : Function.Injective text) (name : String) (before after : α) :
    fieldChange name text before after =
      if text before = text after then []
      else [name ++ ": " ++ text before ++ " → " ++ text after] := by
  simp only [fieldChange, htext.eq_iff]

theorem entryChanges_eq (old new : Entry) : entryChanges old new =
    fieldLines old new ++ (gainedFeatures old new).map ("+ " ++ ·) ++
      (gainedFeatures new old).map ("- " ++ ·) := by
  simp only [entryChanges, fieldChange_eq Function.injective_id,
    fieldChange_eq HttpVerb.name_injective, fieldChange_eq flag_injective,
    fieldChange_eq policyText_injective, fieldLines, shownFields, List.zip_cons_cons,
    List.zip_nil_left, List.flatMap_cons, List.flatMap_nil, List.append_nil, List.append_assoc]
  rfl

private theorem fieldChange_eq_nil_iff {α : Type} [DecidableEq α] (name : String)
    (text : α → String)
    (before after : α) : fieldChange name text before after = [] ↔ before = after := by
  simp [fieldChange]

private theorem gainedFeatures_eq_nil_iff (old new : Entry) :
    (gainedFeatures old new = [] ∧ gainedFeatures new old = []) ↔
      TagSet.ofList old.features = TagSet.ofList new.features := by
  simp only [List.eq_nil_iff_forall_not_mem, mem_gainedFeatures, TagSet.ext_iff, TagSet.mem_ofList]
  grind

/-- There is nothing to describe exactly where all fields that count are the same. -/
theorem entryChanges_eq_nil_iff (old new : Entry) :
    entryChanges old new = [] ↔ old.comparisonKey = new.comparisonKey := by
  have hfeatures := gainedFeatures_eq_nil_iff old new
  simp only [gainedFeatures] at hfeatures
  simp only [entryChanges, Entry.comparisonKey, ComparisonKey.mk.injEq, List.append_eq_nil_iff,
    fieldChange_eq_nil_iff, List.map_eq_nil_iff, ← hfeatures, and_assoc]

private theorem ne_empty_of_mem_entryChanges {old new : Entry} {line : String}
    (h : line ∈ entryChanges old new) : line ≠ "" := by
  rw [entryChanges_eq, List.mem_append, List.mem_append] at h
  rcases h with (h | h) | h
  · obtain ⟨fields, -, hline⟩ := List.mem_flatMap.mp h
    dsimp only at hline
    split at hline
    · cases hline
    · rw [List.mem_singleton.mp hline]
      simp
  · obtain ⟨feature, -, rfl⟩ := List.mem_map.mp h
    simp
  · obtain ⟨feature, -, rfl⟩ := List.mem_map.mp h
    simp

/-! ## Rows -/

/-- The cell with the changes of an entry, one a line. -/
def changesCell (old new : Entry) : String :=
  Text.join "\n" ((entryChanges old new).map Text.escape)

private theorem changesCell_ne_empty {old new : Entry} (h : old.comparisonKey ≠ new.comparisonKey) :
    changesCell old new ≠ "" := by
  apply Text.join_ne_empty
  · simpa [entryChanges_eq_nil_iff] using h
  · intro cell hcell
    obtain ⟨line, hline, rfl⟩ := List.mem_map.mp hcell
    exact Text.escape_ne_empty (ne_empty_of_mem_entryChanges hline)

theorem head?_of_diffRow {kind : String} {shown : Option Entry} {details : Entry → String}
    {row : List String} (h : diffRow kind shown details = some row) : row.head? = some kind := by
  obtain ⟨e, -, rfl⟩ := Option.map_eq_some_iff.mp h
  rfl

/-- The rows of changed endpoints are told apart by their kind. -/
theorem mem_diffRows_changed (d : DiffReport) (row : List String) :
    row ∈ diffRows d ∧ row.head? = some "[yellow]changed[/yellow]" ↔
      ∃ c ∈ d.changed, diffRow "[yellow]changed[/yellow]" c.new
        (fun _ => Text.join "\n" ((changes c).map Text.escape)) = some row := by
  simp only [diffRows, List.mem_append, List.mem_filterMap]
  constructor
  · rintro ⟨(⟨c, -, hrow⟩ | ⟨c, -, hrow⟩) | hchanged, hkind⟩
    · rw [head?_of_diffRow hrow] at hkind
      exact absurd hkind (by decide)
    · rw [head?_of_diffRow hrow] at hkind
      exact absurd hkind (by decide)
    · exact hchanged
  · rintro ⟨c, hc, hrow⟩
    exact ⟨.inr ⟨c, hc, hrow⟩, head?_of_diffRow hrow⟩

private theorem mem_table_iff (d : DiffReport) (row : List String) :
    (∃ title columns rows, Printed.table title columns rows ∈ diff d ∧ row ∈ rows) ↔
      row ∈ diffRows d := by
  unfold diff
  split
  · next hempty =>
    simp only [DiffReport.isEmpty, Bool.and_eq_true, List.isEmpty_iff] at hempty
    simp [diffRows, hempty]
  · simp

private theorem mem_table_changed_iff (key : DiffKey) (old new : Report) (row : List String) :
    (∃ title columns rows, Printed.table title columns rows ∈ diff (old.diff key new) ∧
      row ∈ rows ∧ row.head? = some "[yellow]changed[/yellow]") ↔
    ∃ before after, { new := some after, old := some before } ∈ (old.diff key new).changed ∧
      changesCell before after ≠ "" ∧
      row = ["[yellow]changed[/yellow]", Text.escape after.label,
        Text.escape after.authExpression, changesCell before after] := by
  simp only [← and_assoc, exists_and_right, mem_table_iff, mem_diffRows_changed]
  constructor
  · rintro ⟨c, hc, hrow⟩
    obtain ⟨k, before, after, hold, hnew, hne, rfl⟩ :=
      (Report.mem_diff_changed key old new c).mp hc
    exact ⟨before, after, ⟨hc, changesCell_ne_empty hne⟩, (Option.some.inj hrow).symm⟩
  · rintro ⟨before, after, ⟨hc, -⟩, rfl⟩
    exact ⟨_, hc, rfl⟩

/-- **Descriptions agree with the detection of changes.** An endpoint has a description exactly if
it has changed: lines for its fields, then one for each feature that it gained and one for each
that it lost. So every row of a changed endpoint has details. -/
theorem changes_agree (old new : Entry) (key : DiffKey) (before after : Report) :
    let described := changes { new := some new, old := some old }
    (described ≠ [] ↔ old.hasChanged new = true) ∧
    (∃ gained lost : List String,
      described = fieldLines old new ++ gained.map ("+ " ++ ·) ++ lost.map ("- " ++ ·) ∧
      gained.Pairwise (· < ·) ∧ lost.Pairwise (· < ·) ∧
      (∀ feature, feature ∈ gained ↔ feature ∈ new.features ∧ feature ∉ old.features) ∧
      ∀ feature, feature ∈ lost ↔ feature ∈ old.features ∧ feature ∉ new.features) ∧
    ∀ row, (∃ title columns rows, Printed.table title columns rows ∈ diff (before.diff key after) ∧
        row ∈ rows ∧ row.head? = some "[yellow]changed[/yellow]") ↔
      ∃ e e', { new := some e', old := some e } ∈ (before.diff key after).changed ∧
        changesCell e e' ≠ "" ∧
        row = ["[yellow]changed[/yellow]", Text.escape e'.label, Text.escape e'.authExpression,
          changesCell e e'] := by
  refine ⟨?detected, ⟨gainedFeatures old new, gainedFeatures new old, ?lines⟩,
    mem_table_changed_iff key before after⟩
  case detected =>
    rw [Entry.hasChanged, bne_iff_ne]
    exact not_congr (entryChanges_eq_nil_iff old new)
  case lines =>
    exact ⟨entryChanges_eq old new, TagSet.ascending _, TagSet.ascending _,
      mem_gainedFeatures old new, mem_gainedFeatures new old⟩

-- A feature that is only listed twice is no change, and neither is another order.
example :
    let entry (features : List String) : Entry := { path := "/a", verb := .get, features }
    changes { new := some (entry ["b", "a", "b"]), old := some (entry ["a", "b"]) } = [] ∧
    changes { new := some (entry ["CSRF Disabled", "b"]), old := some (entry ["b", "a"]) } =
      ["csrf_enabled: True → False", "+ CSRF Disabled", "- a"] := by
  decide +kernel

end Render

end EndpointAudit
