import EndpointAudit.Proofs.ClassPath.Intact

/-!
# The types on a class path

Listing a class path without broken archives meets the types of all its entries, each where the
first entry has it.
-/

namespace EndpointAudit.ClassPath

/-- The type that is met, if it is one. -/
def Visit.type? : Visit → Option String
  | .type typeName => some typeName
  | .skipped _ | .broken _ => none

theorem Visit.eq_type_of_type? {visit : Visit} {typeName : String}
    (h : visit.type? = some typeName) : visit = .type typeName := by
  cases visit with
  | type => rw [Option.some.inj h]
  | skipped | broken => cases h

/-- The names of the files in an entry that is a folder or an archive. -/
def resources (entry : ClassPathEntry) : List String :=
  match entry.content with
  | .folder files folders => folderResources files folders
  | .archive members => archiveResources members
  | .brokenArchive | .other => []

/-- The types of a package in all entries of a class path. -/
def types (cp : ClassPath) (package : String) : List String :=
  (((cp.entries.flatMap resources).filter (isClassIn (packageStart package))).map typeOf).eraseDups

private theorem visitEntry_types (start : String) (entry : ClassPathEntry) :
    (visitEntry start entry).filterMap Visit.type? =
      ((resources entry).filter (isClassIn start)).map typeOf := by
  unfold visitEntry resources
  cases entry.content with
  | folder | archive =>
    rw [List.filterMap_map, ← List.filterMap_eq_map]
    rfl
  | brokenArchive | other => rfl

private theorem broken_mem_visitEntry {start name : String} {entry : ClassPathEntry}
    (h : .broken name ∈ visitEntry start entry) : entry.content = .brokenArchive := by
  unfold visitEntry at h
  cases hcontent : entry.content with
  | brokenArchive => rfl
  | folder | archive | other => simp [hcontent] at h

/-- Dropping the types met before leaves each type once. -/
theorem firstVisits_types (seen : List String) (visits : List Visit) :
    (firstVisits seen visits).filterMap Visit.type? =
      ((visits.filterMap Visit.type?).filter (!seen.contains ·)).eraseDups := by
  induction visits generalizing seen with
  | nil => rfl
  | cons visit rest ih =>
    cases visit with
    | skipped | broken => exact ih seen
    | type t =>
      have hcons (vs : List Visit) :
          (Visit.type t :: vs).filterMap Visit.type? = t :: vs.filterMap Visit.type? := rfl
      rw [firstVisits, hcons rest]
      by_cases h : seen.contains t = true
      · rw [if_pos h, List.filter_cons_of_neg (by rw [h]; decide), ih seen]
      · have hfilter : (rest.filterMap Visit.type?).filter (!(t :: seen).contains ·) =
            ((rest.filterMap Visit.type?).filter (!seen.contains ·)).filter
              (fun t' => !t' == t) := by
          rw [List.filter_filter]
          apply List.filter_congr
          intro t' _
          rw [List.contains_cons, Bool.not_or]
        rw [if_neg h, hcons, ih, hfilter, List.filter_cons_of_pos (by simpa using h),
          List.eraseDups_cons]

private theorem mem_of_mem_firstVisits {seen : List String} {visits : List Visit} {visit : Visit}
    (h : visit ∈ firstVisits seen visits) : visit ∈ visits := by
  fun_induction firstVisits seen visits with
  | case1 => exact h
  | case2 seen t rest _ ih => exact List.mem_cons_of_mem _ (ih h)
  | case3 seen t rest _ ih => exact List.mem_cons.mpr ((List.mem_cons.mp h).imp_right ih)
  | case4 seen first rest _ ih => exact List.mem_cons.mpr ((List.mem_cons.mp h).imp_right ih)

theorem untilBroken_eq_self {listed : List Visit} (h : ∀ name, .broken name ∉ listed) :
    visits.untilBroken listed = listed := by
  fun_induction visits.untilBroken listed with
  | case1 => rfl
  | case2 name rest => exact absurd List.mem_cons_self (h name)
  | case3 first rest _ ih => rw [ih fun name hmem => h name (List.mem_cons_of_mem _ hmem)]

variable {cp : ClassPath}

theorem Intact.broken_not_mem (h : cp.Intact) (package name : String) :
    .broken name ∉ firstVisits [] (cp.entries.flatMap (visitEntry (packageStart package))) := by
  intro hmem
  obtain ⟨entry, hentry, hbroken⟩ := List.mem_flatMap.mp (mem_of_mem_firstVisits hmem)
  exact h entry hentry (broken_mem_visitEntry hbroken)

theorem Intact.broken_not_mem_visits (h : cp.Intact) (package name : String) :
    .broken name ∉ cp.visits package := by
  rw [visits, untilBroken_eq_self (h.broken_not_mem package)]
  exact h.broken_not_mem package name

/-- Listing an intact class path meets all its types. -/
theorem Intact.visits_types (h : cp.Intact) (package : String) :
    (cp.visits package).filterMap Visit.type? = cp.types package := by
  have hall (ts : List String) : ts.filter (!([] : List String).contains ·) = ts :=
    List.filter_eq_self.mpr fun _ _ => rfl
  rw [visits, untilBroken_eq_self (h.broken_not_mem package), firstVisits_types, hall, types]
  simp only [List.filterMap_flatMap, visitEntry_types, List.filter_flatMap, List.map_flatMap]

end EndpointAudit.ClassPath
