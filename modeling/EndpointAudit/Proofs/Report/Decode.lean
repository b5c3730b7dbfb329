import EndpointAudit.Proofs.Moment.Text
import EndpointAudit.Report.Decode
import EndpointAudit.Report.Encode

/-!
# Reports from their own data

The check of data against what a report is made of, as an inverse of writing a report as data, and
what the check does not look at. A report that has come through the check comes through it again
unchanged, since no expression in it is blank. The fields that are computed from others may hold
anything or be missing.
-/

namespace EndpointAudit

namespace Checked

variable {α β : Type}

@[simp]
theorem map_valid (f : α → β) (a : α) : map f (.valid a) = .valid (f a) := rfl

@[simp]
theorem ap_valid (f : α → β) (a : α) : ap (.valid f) (.valid a) = .valid (f a) := rfl

@[simp]
theorem under_valid (step : PlaceStep) (a : α) : under step (.valid a) = .valid a := rfl

theorem map_eq_valid_iff {f : α → β} {x : Checked α} {b : β} :
    x.map f = .valid b ↔ ∃ a, x = .valid a ∧ f a = b := by
  cases x <;> simp [map]

theorem ap_eq_valid_iff {f : Checked (α → β)} {x : Checked α} {b : β} :
    f.ap x = .valid b ↔ ∃ g a, f = .valid g ∧ x = .valid a ∧ g a = b := by
  cases f <;> cases x <;> simp [ap]

/-- A list comes through the check if every member does. -/
theorem all_eq_valid_iff {xs : List (Checked α)} {as : List α} :
    all xs = .valid as ↔ xs = as.map .valid := by
  induction xs generalizing as with
  | nil => cases as <;> simp [all]
  | cons x xs ih =>
    rw [all, ap_eq_valid_iff]
    constructor
    · rintro ⟨g, rest, hx, hrest, rfl⟩
      obtain ⟨a, rfl, rfl⟩ := map_eq_valid_iff.mp hx
      rw [ih.mp hrest]
      rfl
    · intro h
      cases as with
      | nil => contradiction
      | cons a as =>
        obtain ⟨rfl, rfl⟩ := List.cons.inj h
        exact ⟨_, as, rfl, ih.mpr rfl, rfl⟩

/-- Whatever comes through the check satisfies `P`. -/
def Ensures (x : Checked α) (P : α → Prop) : Prop := ∀ a, x = .valid a → P a

namespace Ensures

variable {P : β → Prop} {Q : α → Prop} {f : Checked (α → β)} {x : Checked α}

theorem fail (fault : DataFault) : (fail fault).Ensures Q := nofun

theorem map {g : α → β} (hx : x.Ensures fun a => P (g a)) : (x.map g).Ensures P := by
  intro b hb
  obtain ⟨a, ha, rfl⟩ := map_eq_valid_iff.mp hb
  exact hx a ha

theorem ap (hx : x.Ensures Q) (hf : f.Ensures fun g => ∀ a, Q a → P (g a)) :
    (f.ap x).Ensures P := by
  intro b hb
  obtain ⟨g, a, hg, ha, rfl⟩ := ap_eq_valid_iff.mp hb
  exact hf g hg a (hx a ha)

theorem ap_any (hf : f.Ensures fun g => ∀ a, P (g a)) : (f.ap x).Ensures P :=
  ap (Q := fun _ => True) (fun _ _ => trivial) fun g hg a _ => hf g hg a

theorem under {step : PlaceStep} (hx : x.Ensures Q) : (x.under step).Ensures Q := by
  cases x with
  | valid a => exact hx
  | invalid faults => nofun

theorem all {xs : List (Checked α)} (h : ∀ x ∈ xs, x.Ensures Q) :
    (all xs).Ensures fun as => ∀ a ∈ as, Q a := by
  intro as has a ha
  have hmem : Checked.valid a ∈ xs := by
    rw [all_eq_valid_iff.mp has]
    exact List.mem_map_of_mem ha
  exact h _ hmem a rfl

end Ensures

end Checked

namespace Data

@[simp]
theorem get?_cons (key k : String) (d : Data) (entries : List (String × Data)) :
    get? key ((k, d) :: entries) =
      (get? key entries).or (if k = key then some d else none) := by
  rw [get?, get?, List.reverse_cons, List.find?_append, Option.map_or]
  by_cases hk : k = key
  · simp [hk]
  · simp [hk]

@[simp]
theorem get?_nil (key : String) : get? key [] = none := rfl

/-- The entries of a mapping without those under some keys. -/
def dropKeys (keys : List String) (entries : List (String × Data)) : List (String × Data) :=
  entries.filter fun entry => !keys.contains entry.1

/-- The entries of a mapping with the values under one key changed. -/
def mapField (key : String) (f : Data → Data) (entries : List (String × Data)) :
    List (String × Data) :=
  entries.map fun entry => (entry.1, if entry.1 = key then f entry.2 else entry.2)

/-- A mapping with its entries changed. -/
def mapEntries (f : List (String × Data) → List (String × Data)) : Data → Data
  | .map entries => .map (f entries)
  | d => d

/-- A list with its items changed. -/
def mapItems (f : Data → Data) : Data → Data
  | .list items => .list (items.map f)
  | d => d

theorem get?_dropKeys {keys : List String} {key : String} (h : key ∉ keys)
    (entries : List (String × Data)) : get? key (dropKeys keys entries) = get? key entries := by
  rw [get?, get?, dropKeys, ← List.filter_reverse, List.find?_filter]
  congr 2
  funext entry
  by_cases hk : entry.1 = key
  · simp [hk, h]
  · simp [hk]

theorem get?_mapField (key : String) (f : Data → Data) (k : String)
    (entries : List (String × Data)) :
    get? k (mapField key f entries) =
      (get? k entries).map fun d => if k = key then f d else d := by
  rw [get?, get?, mapField, ← List.map_reverse, List.find?_map, Option.map_map, Option.map_map]
  show (entries.reverse.find? (·.1 == k)).map _ = _
  cases hfind : entries.reverse.find? (·.1 == k) with
  | none => rfl
  | some entry =>
    have hk : entry.1 = k := by simpa using List.find?_some hfind
    simp [hk]

/-- An entry without what is computed. -/
def entryCore : Data → Data := mapEntries (dropKeys ["csrf_enabled"])

/-- A group without what is computed. -/
def groupCore : Data → Data := mapEntries (mapField "endpoints" (mapItems entryCore))

/-- A report without what is computed. -/
def reportCore : Data → Data := mapEntries fun entries =>
  mapField "groups" (mapItems groupCore)
    (dropKeys ["total_endpoints", "unique_auth_expressions"] entries)

end Data

private theorem Doc.toDataItems_eq (ds : List Doc) : Doc.toDataItems ds = ds.map Doc.toData := by
  induction ds with
  | nil => rfl
  | cons d ds ih => rw [Doc.toDataItems, ih, List.map_cons]

namespace Entry

private theorem isBlankText_expressionOf (expression : String) :
    Text.isBlankText (expressionOf expression) = false := by
  unfold expressionOf
  split
  · decide
  · next hblank => simpa using hblank

private theorem expressionOf_of_not_blank {expression : String}
    (h : Text.isBlankText expression = false) : expressionOf expression = expression := by
  rw [expressionOf, h]
  rfl

end Entry

namespace Decode

variable {α : Type}

/-! ## What the check does not look at -/

theorem required_dropKeys {keys : List String} {name : String} (h : name ∉ keys)
    (entries : List (String × Data)) (check : Data → Checked α) :
    required (Data.dropKeys keys entries) name check = required entries name check := by
  rw [required, required, Data.get?_dropKeys h]

theorem withDefault_dropKeys {keys : List String} {name : String} (h : name ∉ keys)
    (entries : List (String × Data)) (default : α) (check : Data → Checked α) :
    withDefault (Data.dropKeys keys entries) name default check =
      withDefault entries name default check := by
  rw [withDefault, withDefault, Data.get?_dropKeys h]

theorem required_mapField {key name : String} (h : name ≠ key) (f : Data → Data)
    (entries : List (String × Data)) (check : Data → Checked α) :
    required (Data.mapField key f entries) name check = required entries name check := by
  rw [required, required, Data.get?_mapField]
  simp [h]

theorem withDefault_mapField {f : Data → Data} {check : Data → Checked α}
    (h : ∀ d, check (f d) = check d) (name : String) (entries : List (String × Data))
    (default : α) :
    withDefault (Data.mapField name f entries) name default check =
      withDefault entries name default check := by
  rw [withDefault, withDefault, Data.get?_mapField]
  cases Data.get? name entries <;> simp [h]

theorem items_mapItems {check : Data → Checked α} {f : Data → Data}
    (h : ∀ d, check (f d) = check d) (d : Data) :
    items check (Data.mapItems f d) = items check d := by
  cases d with
  | list ds =>
    rw [Data.mapItems, items, items, List.zipIdx_map, List.map_map]
    congr 2
    funext item
    simp [h]
  | _ => rfl

private theorem entry_entryCore (d : Data) : entry (Data.entryCore d) = entry d := by
  cases d with
  | map entries =>
    simp (disch := decide) only [Data.entryCore, Data.mapEntries, entry, required_dropKeys,
      withDefault_dropKeys]
  | _ => rfl

private theorem group_groupCore (d : Data) : group (Data.groupCore d) = group d := by
  cases d with
  | map entries =>
    simp only [Data.groupCore, Data.mapEntries, group]
    rw [required_mapField (by decide), withDefault_mapField (items_mapItems entry_entryCore)]
  | _ => rfl

/-- What is computed has no part in a report that is read. -/
theorem report_reportCore (d : Data) : report (Data.reportCore d) = report d := by
  cases d with
  | map entries =>
    simp only [Data.reportCore, Data.mapEntries, report]
    rw [required_mapField (by decide), withDefault_mapField (items_mapItems group_groupCore),
      required_dropKeys (by decide), withDefault_dropKeys (by decide)]
  | _ => rfl

/-! ## What comes through the check -/

theorem withDefault_ensures {P : α → Prop} {default : α} {check : Data → Checked α}
    (hdefault : P default) (hcheck : ∀ d, (check d).Ensures P) (entries : List (String × Data))
    (name : String) : (withDefault entries name default check).Ensures P := by
  unfold withDefault
  split
  · exact (hcheck _).under
  · rintro a ⟨⟩
    exact hdefault

theorem items_ensures {P : α → Prop} {check : Data → Checked α}
    (hcheck : ∀ d, (check d).Ensures P) (d : Data) :
    (items check d).Ensures fun as => ∀ a ∈ as, P a := by
  cases d with
  | list ds =>
    apply Checked.Ensures.all
    intro x hx
    obtain ⟨⟨item, n⟩, -, rfl⟩ := List.mem_map.mp hx
    exact (hcheck item).under
  | _ => exact .fail _

private theorem entry_ensures (d : Data) :
    (entry d).Ensures fun e => Text.isBlankText e.authExpression = false := by
  cases d with
  | map entries =>
    rw [entry]
    -- The expression is the third of ten fields.
    iterate 7 refine .ap_any ?_
    have hexpression : (withDefault entries "auth_expression" noAuthorization fun d =>
        (text d).map Entry.expressionOf).Ensures fun s => Text.isBlankText s = false := by
      refine withDefault_ensures (by decide) (fun d => ?_) _ _
      exact .map fun expression _ => Entry.isBlankText_expressionOf expression
    refine .ap hexpression (.ap_any (.map ?_))
    exact fun _ _ _ _ hblank _ _ _ _ _ _ _ => hblank
  | _ => exact .fail _

private theorem group_ensures (d : Data) :
    (group d).Ensures fun g => ∀ e ∈ g.endpoints, Text.isBlankText e.authExpression = false := by
  cases d with
  | map entries =>
    rw [group]
    refine .ap (withDefault_ensures (by simp) (items_ensures entry_ensures) _ _) (.map ?_)
    exact fun _ _ _ hendpoints => hendpoints
  | _ => exact .fail _

/-- No expression in a report that has come through the check is blank. -/
theorem report_ensures (d : Data) :
    (report d).Ensures fun r => ∀ g ∈ r.groups, ∀ e ∈ g.endpoints,
      Text.isBlankText e.authExpression = false := by
  cases d with
  | map entries =>
    rw [report]
    refine .ap (withDefault_ensures (by simp) (items_ensures group_ensures) _ _) (.map ?_)
    exact fun _ _ _ hgroups => hgroups
  | _ => exact .fail _

/-! ## Reports as data and back -/

theorem items_toData {check : Data → Checked α} {write : α → Doc} {as : List α}
    (h : ∀ a ∈ as, check (write a).toData = .valid a) :
    items check (Doc.list (as.map write)).toData = .valid as := by
  rw [Doc.toData, items, Checked.all_eq_valid_iff, Doc.toDataItems_eq, List.map_map,
    List.zipIdx_map, List.map_map]
  have hindex : as.map Checked.valid =
      (as.zipIdx.map fun item => item.1).map Checked.valid := by
    rw [List.zipIdx_map_fst]
  rw [hindex, List.map_map]
  apply List.map_congr_left
  rintro ⟨a, n⟩ hmem
  simp [h a (List.fst_mem_of_mem_zipIdx hmem)]

@[simp]
theorem text_toData (s : String) : text (Doc.text s).toData = .valid s := rfl

@[simp]
theorem flag_toData (b : Bool) : flag (Doc.bool b).toData = .valid b := rfl

@[simp]
theorem optional_text_toData (o : Option String) :
    optional text (Doc.ofOption o).toData = .valid o := by
  cases o <;> rfl

@[simp]
theorem member_name (verb : HttpVerb) :
    member HttpVerb.ofName? (Doc.text verb.name).toData = .valid verb := by
  rw [Doc.toData, member, member.named, Option.bind_some, verb.ofName?_name]

@[simp]
theorem optional_member_name (policy : Option SessionPolicy) :
    optional (member SessionPolicy.ofName?) (Doc.ofOption (policy.map (·.name))).toData =
      .valid policy := by
  cases policy with
  | none => rfl
  | some policy =>
    show (member SessionPolicy.ofName? (.text policy.name)).map some = _
    rw [member, member.named, Option.bind_some, policy.ofName?_name]
    rfl

private theorem entry_toDoc {e : Entry} (h : Text.isBlankText e.authExpression = false) :
    entry e.toDoc.toData = .valid e := by
  have hfeatures : items text (Doc.list (e.features.map Doc.text)).toData = .valid e.features :=
    items_toData fun s _ => text_toData s
  have hexpression := Entry.expressionOf_of_not_blank h
  rw [Entry.toDoc, Doc.toData, entry]
  simp [Doc.toDataEntries, required, withDefault, hfeatures, hexpression]

private theorem group_toDoc {g : Group}
    (h : ∀ e ∈ g.endpoints, Text.isBlankText e.authExpression = false) :
    group g.toDoc.toData = .valid g := by
  have hendpoints : items entry (Doc.list (g.endpoints.map Entry.toDoc)).toData =
      .valid g.endpoints := items_toData fun e he => entry_toDoc (h e he)
  rw [Group.toDoc, Doc.toData, group]
  simp [Doc.toDataEntries, required, withDefault, hendpoints]

private theorem moment_toData {m : Moment} (h : m.IsProper) :
    moment (Doc.text m.text).toData = .valid m := by
  have hyear : m.year ≠ 0 := Nat.one_le_iff_ne_zero.mp h.year
  rw [Doc.toData, moment, Moment.ofText?_text h, moment.found]
  exact if_neg hyear

/-- A report without a blank expression comes through the check unchanged. -/
theorem report_toDoc {r : Report} (hmoment : r.generatedAt.IsProper)
    (h : ∀ g ∈ r.groups, ∀ e ∈ g.endpoints, Text.isBlankText e.authExpression = false) :
    report r.toDoc.toData = .valid r := by
  have hgroups : items group (Doc.list (r.groups.map Group.toDoc)).toData = .valid r.groups :=
    items_toData fun g hg => group_toDoc (h g hg)
  rw [Report.toDoc, Doc.toData, report]
  simp [Doc.toDataEntries, required, withDefault, moment_toData hmoment, hgroups]

end Decode

end EndpointAudit
