import EndpointAudit.Proofs.Data.Lookup
import EndpointAudit.Proofs.Filter.Memo
import Mathlib.Data.List.Perm.Subperm
import Mathlib.Data.List.TakeWhile

/-!
# The walk over filters

What is found out about a filter type does not depend on the memory, as long as the memory is
faithful. So a walk over filters comes apart into the types that it asks for, in order, and what
the memory learns from them. A walk that comes to its end has asked for exactly the types that are
reached from those it was started with.
-/

namespace EndpointAudit.Filter

section Definitions

variable (cp : ClassPath) (settings : Settings)

/-- A filter type together with its coverage. -/
def reading (filterType : String) : Except ScanError (String × Coverage) :=
  (analyze cp settings filterType).map fun found => (filterType, found.1)

/-- The memory after a filter type has been asked for. An analysis that fails leaves no trace. -/
def Memo.learn (memo : Memo) (filterType : String) : Memo :=
  if Assoc.hasKey filterType memo.known then memo
  else match analyze cp settings filterType with
    | .ok (found, told) => memo.add filterType found told
    | .error _ => memo

/-- The types that a walk asks for, in order, if it has dealt with those in `seen`. The first
failure ends the walk. -/
def asked : (steps : Nat) → (waiting seen : List String) → List String
  | 0, _, _ => []
  | steps + 1, waiting, seen =>
    match waiting.dropWhile (seen.contains ·) with
    | [] => []
    | filterType :: rest =>
      filterType :: match reading cp settings filterType with
        | .ok (_, found) =>
          asked steps
            (rest ++ found.delegates.filter fun d => !(seen ++ [filterType]).contains d)
            (seen ++ [filterType])
        | .error _ => []

/-- The types that can be reached from the given ones by going from filters to the filters that
they make use of. -/
inductive Reaches (roots : List String) : String → Prop
  | root {filterType : String} (h : filterType ∈ roots) : Reaches roots filterType
  | delegate {filterType d : String} {found : Coverage} (h : Reaches roots filterType)
      (hfound : IsCoverage cp settings filterType found) (hd : d ∈ found.delegates) :
      Reaches roots d

end Definitions

variable {cp : ClassPath} {settings : Settings}

theorem reading_eq_ok_iff {filterType : String} {entry : String × Coverage} :
    reading cp settings filterType = .ok entry ↔
      entry.1 = filterType ∧ IsCoverage cp settings filterType entry.2 := by
  obtain ⟨t, found⟩ := entry
  unfold reading IsCoverage
  cases analyze cp settings filterType with
  | error e => simp [Except.map]
  | ok result =>
    obtain ⟨found', notices⟩ := result
    simp [Except.map, eq_comm]

theorem IsCoverage.unique {filterType : String} {found found' : Coverage}
    (h : IsCoverage cp settings filterType found) (h' : IsCoverage cp settings filterType found') :
    found = found' := by
  obtain ⟨notices, h⟩ := h
  obtain ⟨notices', h'⟩ := h'
  rw [h] at h'
  cases h'
  rfl

/-! ## What the memory learns -/

theorem Memo.learn_of_hasKey {memo : Memo} {filterType : String}
    (h : Assoc.hasKey filterType memo.known = true) :
    memo.learn cp settings filterType = memo := by
  rw [learn, if_pos h]

theorem Memo.learn_of_error {memo : Memo} {filterType : String} {e : ScanError}
    (h : analyze cp settings filterType = .error e) :
    memo.learn cp settings filterType = memo := by
  rw [learn, h, ite_self]

theorem Memo.learn_of_ok {memo : Memo} {filterType : String} {found : Coverage}
    {told : List Notice} (hnew : Assoc.hasKey filterType memo.known = false)
    (h : analyze cp settings filterType = .ok (found, told)) :
    memo.learn cp settings filterType = memo.add filterType found told := by
  rw [learn, if_neg (by simp [hnew]), h]

/-- Either nothing changes, or a type is added that was not known. -/
theorem Memo.learn_cases (memo : Memo) (filterType : String) :
    (memo.learn cp settings filterType = memo ∧
      (filterType ∈ memo.types ∨ ∃ e, analyze cp settings filterType = .error e)) ∨
    ∃ found told, filterType ∉ memo.types ∧
      analyze cp settings filterType = .ok (found, told) ∧
      memo.learn cp settings filterType = memo.add filterType found told := by
  have hkey : Assoc.hasKey filterType memo.known = true ↔ filterType ∈ memo.types := by
    rw [Assoc.hasKey_eq_isSome_get?, Assoc.get?_isSome_iff, types]
  cases hknown : Assoc.hasKey filterType memo.known with
  | true => exact .inl ⟨learn_of_hasKey hknown, .inl (hkey.mp hknown)⟩
  | false =>
    cases hfound : analyze cp settings filterType with
    | error e => exact .inl ⟨learn_of_error hfound, .inr ⟨e, rfl⟩⟩
    | ok result =>
      obtain ⟨found, notices⟩ := result
      have hnot : filterType ∉ memo.types := by
        rw [← hkey, hknown]
        decide
      exact .inr ⟨found, notices, hnot, rfl, learn_of_ok hknown hfound⟩

theorem Memo.Faithful.learn {memo : Memo} (h : memo.Faithful cp settings) (filterType : String) :
    (memo.learn cp settings filterType).Faithful cp settings := by
  rcases memo.learn_cases filterType with ⟨heq, -⟩ | ⟨found, notices, -, hfound, heq⟩
  · rw [heq]
    exact h
  · rw [heq]
    intro e he
    rcases List.mem_append.mp he with hold | hnew
    · exact h e hold
    · rw [List.mem_singleton.mp hnew]
      exact ⟨notices, hfound⟩

theorem Memo.Faithful.foldl_learn {memo : Memo} (h : memo.Faithful cp settings)
    (ts : List String) : (ts.foldl (Memo.learn cp settings) memo).Faithful cp settings :=
  List.foldlRecOn ts _ h fun _ hfaithful t _ => hfaithful.learn t

private theorem Memo.known_prefix_learn (memo : Memo) (filterType : String) :
    memo.known <+: (memo.learn cp settings filterType).known := by
  rcases memo.learn_cases filterType with ⟨heq, -⟩ | ⟨found, notices, -, -, heq⟩
  · have hsame : (memo.learn cp settings filterType).known = memo.known := by rw [heq]
    exact hsame ▸ List.prefix_rfl
  · rw [heq]
    exact List.prefix_append _ _

theorem Memo.known_prefix_foldl_learn (memo : Memo) (ts : List String) :
    memo.known <+: (ts.foldl (Memo.learn cp settings) memo).known :=
  List.foldlRecOn (motive := fun memo' : Memo => memo.known <+: memo'.known) ts _ List.prefix_rfl
    fun memo' hprefix t _ => hprefix.trans (Memo.known_prefix_learn memo' t)

private theorem Memo.nodup_types_learn {memo : Memo} (h : memo.types.Nodup) (filterType : String) :
    (memo.learn cp settings filterType).types.Nodup := by
  rcases memo.learn_cases filterType with ⟨heq, -⟩ | ⟨found, notices, hnew, -, heq⟩
  · rw [heq]
    exact h
  · have hdisjoint : memo.types.Disjoint [filterType] := List.disjoint_singleton.mpr hnew
    rw [heq, types_add]
    exact List.Nodup.append h (List.nodup_singleton _) hdisjoint

theorem Memo.nodup_types_foldl_learn {memo : Memo} (h : memo.types.Nodup) (ts : List String) :
    (ts.foldl (Memo.learn cp settings) memo).types.Nodup :=
  List.foldlRecOn (motive := fun memo' : Memo => memo'.types.Nodup) ts _ h
    fun _ hnodup t _ => nodup_types_learn hnodup t

private theorem Memo.mem_types_learn {memo : Memo} {filterType t : String} :
    t ∈ (memo.learn cp settings filterType).types ↔
      t ∈ memo.types ∨ t = filterType ∧ ∃ found, IsCoverage cp settings t found := by
  rcases memo.learn_cases filterType with ⟨heq, hwhy⟩ | ⟨found, notices, hnew, hfound, heq⟩
  · rw [heq]
    refine ⟨.inl, ?_⟩
    rintro (hold | ⟨rfl, found, notices, hfound⟩)
    · exact hold
    · rcases hwhy with hknown | ⟨e, herror⟩
      · exact hknown
      · rw [herror] at hfound
        cases hfound
  · rw [heq, types_add, List.mem_append]
    apply or_congr Iff.rfl
    constructor
    · intro hmem
      have ht : t = filterType := List.mem_singleton.mp hmem
      exact ⟨ht, found, notices, ht ▸ hfound⟩
    · rintro ⟨rfl, -⟩
      simp

theorem Memo.mem_types_foldl_learn {memo : Memo} {ts : List String} {t : String} :
    t ∈ (ts.foldl (Memo.learn cp settings) memo).types ↔
      t ∈ memo.types ∨ t ∈ ts ∧ ∃ found, IsCoverage cp settings t found := by
  induction ts generalizing memo with
  | nil => simp
  | cons first ts ih =>
    rw [List.foldl_cons, ih, mem_types_learn, List.mem_cons]
    tauto

/-! ## The run of a walk -/

theorem coverage_run_eq {memo : Memo} (hmemo : memo.Faithful cp settings) (filterType : String) :
    (coverage cp settings filterType).run memo =
      ((reading cp settings filterType).map (·.2), memo.learn cp settings filterType) := by
  have hrun : (get : Analysis Memo).run memo = (.ok memo, memo) := rfl
  rw [coverage, run_bind hrun]
  cases hget : Assoc.get? filterType memo.known with
  | some found =>
    have hkey : Assoc.hasKey filterType memo.known = true := by
      rw [Assoc.hasKey_eq_isSome_get?, hget]
      rfl
    have hentry : reading cp settings filterType = .ok (filterType, found) :=
      reading_eq_ok_iff.mpr ⟨rfl, hmemo _ (Assoc.mem_of_get?_eq_some hget)⟩
    rw [Memo.learn_of_hasKey hkey, hentry]
    rfl
  | none =>
    have hkey : Assoc.hasKey filterType memo.known = false := by
      rw [Assoc.hasKey_eq_isSome_get?, hget]
      rfl
    cases hfound : analyze cp settings filterType with
    | error e =>
      rw [Memo.learn_of_error hfound, reading, hfound]
      rfl
    | ok result =>
      rw [Memo.learn_of_ok hkey hfound, reading, hfound]
      rfl

section Asked

variable {steps : Nat} {waiting rest seen : List String} {filterType : String}

theorem asked_of_nil (hdrop : waiting.dropWhile (seen.contains ·) = []) :
    asked cp settings steps waiting seen = [] := by
  cases steps with
  | zero => rfl
  | succ steps => rw [asked, hdrop]

theorem asked_of_error {e : ScanError}
    (hdrop : waiting.dropWhile (seen.contains ·) = filterType :: rest)
    (hreading : reading cp settings filterType = .error e) :
    asked cp settings (steps + 1) waiting seen = [filterType] := by
  rw [asked, hdrop]
  simp only [hreading]

theorem asked_of_ok {t : String} {found : Coverage}
    (hdrop : waiting.dropWhile (seen.contains ·) = filterType :: rest)
    (hreading : reading cp settings filterType = .ok (t, found)) :
    asked cp settings (steps + 1) waiting seen = filterType ::
      asked cp settings steps
        (rest ++ found.delegates.filter fun d => !(seen ++ [filterType]).contains d)
        (seen ++ [filterType]) := by
  rw [asked, hdrop]
  simp only [hreading]

end Asked

private theorem hasKey_eq_contains (key : String) (found : List (String × Coverage)) :
    Assoc.hasKey key found = (found.map (·.1)).contains key := by
  rw [Bool.eq_iff_iff, Assoc.hasKey_iff]
  simp

private theorem map_append_cons (found : List (String × Coverage)) (entry : String × Coverage)
    (later : Except ScanError (List (String × Coverage))) :
    later.map (found ++ [entry] ++ ·) =
      Except.map (found ++ ·) (do let entries ← later; pure (entry :: entries)) := by
  cases later with
  | error e => rfl
  | ok entries => simp [Except.map, bind, Except.bind, pure, Except.pure]

/-- A walk answers with the coverage of the types that it asks for, and the memory learns them. -/
theorem visitAll_run_eq (steps : Nat) (waiting : List String) (found : List (String × Coverage))
    {memo : Memo} (hmemo : memo.Faithful cp settings) :
    (visitAll cp settings steps waiting found).run memo =
      (((asked cp settings steps waiting (found.map (·.1))).mapM (reading cp settings)).map
          (found ++ ·),
        (asked cp settings steps waiting (found.map (·.1))).foldl (Memo.learn cp settings)
          memo) := by
  have hstop (found : List (String × Coverage)) (memo : Memo) :
      (pure found : Analysis (List (String × Coverage))).run memo =
        ((([] : List String).mapM (reading cp settings)).map (found ++ ·), memo) := by
    change (Except.ok found, memo) = (Except.ok (found ++ []), memo)
    rw [List.append_nil]
  induction steps generalizing waiting found memo with
  | zero => exact hstop found memo
  | succ steps ih =>
    rw [visitAll, visitWith, ← visitAll]
    simp only [hasKey_eq_contains]
    cases hdrop : waiting.dropWhile ((found.map (·.1)).contains ·) with
    | nil =>
      rw [asked_of_nil hdrop]
      exact hstop found memo
    | cons filterType rest =>
      have hrun := coverage_run_eq hmemo filterType
      cases hreading : reading cp settings filterType with
      | error e =>
        rw [hreading] at hrun
        rw [asked_of_error hdrop hreading, List.mapM_cons, hreading]
        exact run_bind_error hrun
      | ok entry =>
        obtain ⟨t, result⟩ := entry
        obtain rfl : t = filterType := (reading_eq_ok_iff.mp hreading).1
        rw [hreading] at hrun
        rw [asked_of_ok hdrop hreading, List.mapM_cons, hreading]
        refine (run_bind hrun).trans ((ih _ _ (hmemo.learn t)).trans ?_)
        rw [List.map_append]
        exact Prod.ext (map_append_cons found (t, result) _) rfl

/-! ## Reaching the end -/

private theorem not_mem_of_dropWhile {waiting seen rest : List String} {filterType : String}
    (hdrop : waiting.dropWhile (seen.contains ·) = filterType :: rest) : filterType ∉ seen := by
  have hhead := List.head?_dropWhile_not (seen.contains ·) waiting
  rw [hdrop] at hhead
  simpa using hhead

private theorem mem_of_dropWhile {waiting seen rest : List String} {filterType t : String}
    (hdrop : waiting.dropWhile (seen.contains ·) = filterType :: rest) (ht : t ∈ waiting) :
    t ∈ seen ∨ t = filterType ∨ t ∈ rest := by
  rw [← List.takeWhile_append_dropWhile (p := (seen.contains ·)) (l := waiting), hdrop] at ht
  rcases List.mem_append.mp ht with hbefore | hbehind
  · exact .inl (by simpa using List.mem_takeWhile_imp hbefore)
  · exact .inr (List.mem_cons.mp hbehind)

/-- Whatever a walk asks for is reached from the types it is started with. -/
theorem reaches_of_mem_asked {roots : List String} (steps : Nat) {waiting : List String}
    (seen : List String) (hwaiting : ∀ t ∈ waiting, Reaches cp settings roots t) {t : String}
    (ht : t ∈ asked cp settings steps waiting seen) : Reaches cp settings roots t := by
  induction steps generalizing waiting seen with
  | zero => simp [asked] at ht
  | succ steps ih =>
    cases hdrop : waiting.dropWhile (seen.contains ·) with
    | nil => simp [asked_of_nil hdrop] at ht
    | cons filterType rest =>
      have hsub : filterType :: rest ⊆ waiting := hdrop ▸ List.dropWhile_subset _
      have hfirst : Reaches cp settings roots filterType := hwaiting _ (hsub (by simp))
      cases hreading : reading cp settings filterType with
      | error e =>
        rw [asked_of_error hdrop hreading, List.mem_singleton] at ht
        exact ht ▸ hfirst
      | ok entry =>
        rw [asked_of_ok hdrop hreading, List.mem_cons] at ht
        rcases ht with rfl | ht
        · exact hfirst
        · refine ih _ (fun w hw => ?_) ht
          rcases List.mem_append.mp hw with hrest | hnew
          · exact hwaiting w (hsub (List.mem_cons_of_mem _ hrest))
          · have hfound := (reading_eq_ok_iff.mp hreading).2
            exact .delegate hfirst hfound (List.mem_of_mem_filter hnew)

/-- A list of types is closed under going from filters to the filters that they make use of, up to
those that are still to come. -/
def ClosedUpTo (cp : ClassPath) (settings : Settings) (seen waiting : List String) : Prop :=
  ∀ t ∈ seen, ∀ found, IsCoverage cp settings t found → ∀ d ∈ found.delegates,
    d ∈ seen ∨ d ∈ waiting

theorem ClosedUpTo.of_subset {seen waiting : List String}
    (h : ClosedUpTo cp settings seen waiting) (hall : waiting ⊆ seen) :
    ClosedUpTo cp settings seen [] := by
  intro t ht found hfound d hd
  exact .inl ((h t ht found hfound d hd).elim id (hall ·))

theorem ClosedUpTo.step {seen waiting rest : List String} {filterType : String}
    {found : Coverage} (h : ClosedUpTo cp settings seen waiting)
    (hdrop : waiting.dropWhile (seen.contains ·) = filterType :: rest)
    (hfound : IsCoverage cp settings filterType found) :
    ClosedUpTo cp settings (seen ++ [filterType])
      (rest ++ found.delegates.filter fun d => !(seen ++ [filterType]).contains d) := by
  intro t ht found' hfound' d hd
  rw [List.mem_append, List.mem_singleton] at ht
  rcases ht with ht | rfl
  · rcases h t ht found' hfound' d hd with hseen | hwaiting
    · exact .inl (List.mem_append_left _ hseen)
    · have hplace := mem_of_dropWhile hdrop hwaiting
      simp only [List.mem_append, List.mem_singleton]
      tauto
  · obtain rfl := hfound.unique hfound'
    by_cases hmem : d ∈ seen ++ [t]
    · exact .inl hmem
    · exact .inr (List.mem_append_right _ (List.mem_filter.mpr ⟨hd, by simpa using hmem⟩))

/-- The walk cannot run out of steps before it runs out of types. All types that are met lie in
`scope`, and every step uses up one of them. -/
theorem asked_closed {scope : List String}
    (hdelegates : ∀ t found, IsCoverage cp settings t found → found.delegates ⊆ scope)
    (steps : Nat) {waiting seen : List String} (hnodup : seen.Nodup) (hseen : seen ⊆ scope)
    (hwaiting : waiting ⊆ scope) (hsteps : scope.length ≤ steps + seen.length)
    (hclosed : ClosedUpTo cp settings seen waiting)
    (hok : ∀ t ∈ asked cp settings steps waiting seen, ∃ found, IsCoverage cp settings t found) :
    waiting ⊆ seen ++ asked cp settings steps waiting seen ∧
      ClosedUpTo cp settings (seen ++ asked cp settings steps waiting seen) [] := by
  induction steps generalizing waiting seen with
  | zero =>
    have hperm : seen.Perm scope :=
      (List.subperm_of_subset hnodup hseen).perm_of_length_le (by omega)
    have hall : waiting ⊆ seen := fun t ht => hperm.mem_iff.mpr (hwaiting ht)
    rw [asked, List.append_nil]
    exact ⟨hall, hclosed.of_subset hall⟩
  | succ steps ih =>
    cases hdrop : waiting.dropWhile (seen.contains ·) with
    | nil =>
      have hall : waiting ⊆ seen := fun t ht => by
        simpa using List.dropWhile_eq_nil_iff.mp hdrop t ht
      rw [asked_of_nil hdrop, List.append_nil]
      exact ⟨hall, hclosed.of_subset hall⟩
    | cons filterType rest =>
      have hsub : filterType :: rest ⊆ waiting := hdrop ▸ List.dropWhile_subset _
      obtain ⟨hfirst, hrest⟩ := List.cons_subset.mp (List.Subset.trans hsub hwaiting)
      cases hreading : reading cp settings filterType with
      | error e =>
        obtain ⟨found, notices, hfound⟩ := hok filterType (by simp [asked_of_error hdrop hreading])
        simp [reading, hfound, Except.map] at hreading
      | ok entry =>
        obtain ⟨t, found⟩ := entry
        rw [asked_of_ok hdrop hreading] at hok ⊢
        rw [List.append_cons]
        have hfound := (reading_eq_ok_iff.mp hreading).2
        have hnodup' : (seen ++ [filterType]).Nodup :=
          hnodup.append (List.nodup_singleton _)
            (List.disjoint_singleton.mpr (not_mem_of_dropWhile hdrop))
        have hseen' : seen ++ [filterType] ⊆ scope :=
          List.append_subset.mpr ⟨hseen, by simpa using hfirst⟩
        have hwaiting' : rest ++ found.delegates.filter
            (fun d => !(seen ++ [filterType]).contains d) ⊆ scope :=
          List.append_subset.mpr
            ⟨hrest, List.Subset.trans (List.filter_subset_self _)
              (hdelegates filterType found hfound)⟩
        have hsteps' : scope.length ≤ steps + (seen ++ [filterType]).length := by
          rw [List.length_append, List.length_singleton]
          omega
        obtain ⟨hasked, hend⟩ := ih hnodup' hseen' hwaiting' hsteps' (hclosed.step hdrop hfound)
          fun t ht => hok t (List.mem_cons_of_mem _ ht)
        refine ⟨fun t ht => ?_, hend⟩
        rcases mem_of_dropWhile hdrop ht with hold | rfl | hlater
        · exact List.mem_append_left _ (List.mem_append_left _ hold)
        · exact List.mem_append_left _ (by simp)
        · exact hasked (List.mem_append_left _ hlater)

/-- A walk that does not fail asks for everything that is reached from where it started. -/
theorem mem_asked_of_reaches {roots scope : List String}
    (hdelegates : ∀ t found, IsCoverage cp settings t found → found.delegates ⊆ scope)
    (hok : ∀ t ∈ asked cp settings (roots.length + scope.length) roots [],
      ∃ found, IsCoverage cp settings t found) {t : String} (h : Reaches cp settings roots t) :
    t ∈ asked cp settings (roots.length + scope.length) roots [] := by
  have hscope : ∀ t found, IsCoverage cp settings t found → found.delegates ⊆ roots ++ scope :=
    fun t found hfound => List.subset_append_of_subset_right _ (hdelegates t found hfound)
  obtain ⟨hroots, hclosed⟩ := asked_closed hscope (roots.length + scope.length) List.nodup_nil
    (List.nil_subset _) (List.subset_append_left roots scope) (by simp) (by simp [ClosedUpTo]) hok
  rw [List.nil_append] at hroots hclosed
  induction h with
  | root hroot => exact hroots hroot
  | delegate _ hfound hd ih => exact (hclosed _ ih _ hfound _ hd).elim id (by simp)

end EndpointAudit.Filter
