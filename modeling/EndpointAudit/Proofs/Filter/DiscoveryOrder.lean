import EndpointAudit.Proofs.Filter.Requests

/-!
# The order in which filters are met

The loop over filters takes the first type that is waiting, passes over it if it has been dealt
with, and otherwise puts the filters that it makes use of at the end. Filters may refer to each
other in a circle, so it is not plain that the loop ends. It does, because every round that adds
types uses up one of the finitely many that the class path refers to. What it has found then is the
closure of the types that it was started with, in the order in which they were first met.
-/

namespace EndpointAudit

/-- No entry holds a file for the type. -/
def ClassPath.Lacks (cp : ClassPath) (typeName : String) : Prop :=
  ∀ entry ∈ cp.entries, readEntry entry (resourceOf (Naming.dotted typeName)) = .ok none

instance (cp : ClassPath) (typeName : String) : Decidable (cp.Lacks typeName) :=
  inferInstanceAs (Decidable (∀ entry ∈ cp.entries,
    ClassPath.readEntry entry (ClassPath.resourceOf (Naming.dotted typeName)) = .ok none))

namespace Filter

section Definitions

variable (cp : ClassPath) (settings : Settings)

/-- The loop over the types that are waiting, with no bound on the number of its rounds: `result`
is what has been found when none is left. -/
inductive Drains : (waiting : List String) → (found result : List (String × Coverage)) → Prop
  | done {found : List (String × Coverage)} : Drains [] found found
  | known {t : String} {waiting : List String} {found result : List (String × Coverage)}
      (hknown : t ∈ found.map (·.1)) (rest : Drains waiting found result) :
      Drains (t :: waiting) found result
  | visit {t : String} {c : Coverage} {waiting : List String}
      {found result : List (String × Coverage)} (hnew : t ∉ found.map (·.1))
      (hcoverage : IsCoverage cp settings t c)
      (rest : Drains
        (waiting ++ c.delegates.filter (· ∉ (found ++ [(t, c)]).map (·.1))) (found ++ [(t, c)])
        result) :
      Drains (t :: waiting) found result

/-- The filters that a type makes use of; none if it cannot be analysed. -/
def delegatesOf (t : String) : List String :=
  match analyze cp settings t with
  | .ok (c, _) => c.delegates
  | .error _ => []

/-- The types that are reached from the roots, each where it is first met by going through the
roots and then through the delegates of one type after the other. -/
def IsDiscoveryOrder (roots keys : List String) : Prop :=
  (∀ t, t ∈ keys ↔ Reaches cp settings roots t) ∧
    keys = (roots ++ keys.flatMap (delegatesOf cp settings)).eraseDups

end Definitions

variable {cp : ClassPath} {settings : Settings}

theorem IsCoverage.delegatesOf_eq {t : String} {c : Coverage} (h : IsCoverage cp settings t c) :
    delegatesOf cp settings t = c.delegates := by
  obtain ⟨notices, h⟩ := h
  rw [delegatesOf, h]

private theorem exists_isCoverage_of_mem_delegatesOf {t d : String}
    (h : d ∈ delegatesOf cp settings t) : ∃ c, IsCoverage cp settings t c ∧ d ∈ c.delegates := by
  unfold delegatesOf at h
  cases hfound : analyze cp settings t with
  | error e => simp [hfound] at h
  | ok result =>
    obtain ⟨c, notices⟩ := result
    rw [hfound] at h
    exact ⟨c, ⟨notices, hfound⟩, h⟩

/-! ## The loop ends -/

private theorem drains_of_known {waiting : List String} {found : List (String × Coverage)}
    (h : ∀ t ∈ waiting, t ∈ found.map (·.1)) : Drains cp settings waiting found found := by
  induction waiting with
  | nil => exact .done
  | cons t waiting ih =>
    apply Drains.known (h t List.mem_cons_self)
    apply ih
    intro t' ht'
    exact h t' (List.mem_cons_of_mem _ ht')

/-- All types that are met lie in `scope`, and every round that adds types uses up one of them. -/
theorem exists_drains (hcp : cp.Intact) {scope : List String}
    (hdelegates : ∀ t c, IsCoverage cp settings t c → c.delegates ⊆ scope) (left : Nat)
    (waiting : List String) (found : List (String × Coverage)) (hwaiting : waiting ⊆ scope)
    (hfound : found.map (·.1) ⊆ scope) (hnodup : (found.map (·.1)).Nodup)
    (hleft : scope.length ≤ left + found.length) :
    ∃ result, Drains cp settings waiting found result := by
  induction left generalizing waiting found with
  | zero =>
    have hperm : (found.map (·.1)).Perm scope :=
      (List.subperm_of_subset hnodup hfound).perm_of_length_le (by simpa using hleft)
    refine ⟨found, drains_of_known ?_⟩
    intro t ht
    exact hperm.mem_iff.mpr (hwaiting ht)
  | succ left ih =>
    -- Types that have been dealt with use up nothing, so they are passed over first.
    induction waiting with
    | nil => exact ⟨found, .done⟩
    | cons t waiting ihwaiting =>
      obtain ⟨ht, hrest⟩ := List.cons_subset.mp hwaiting
      by_cases hknown : t ∈ found.map (·.1)
      · obtain ⟨result, hresult⟩ := ihwaiting hrest
        exact ⟨result, .known hknown hresult⟩
      · obtain ⟨c, hc⟩ := exists_isCoverage hcp settings t
        have hkeys : (found ++ [(t, c)]).map (·.1) = found.map (·.1) ++ [t] := by simp
        have hwaiting' :
            waiting ++ c.delegates.filter (· ∉ (found ++ [(t, c)]).map (·.1)) ⊆ scope :=
          List.append_subset.mpr
            ⟨hrest, List.Subset.trans (List.filter_subset_self _) (hdelegates t c hc)⟩
        have hfound' : (found ++ [(t, c)]).map (·.1) ⊆ scope := by
          rw [hkeys]
          exact List.append_subset.mpr ⟨hfound, by simpa using ht⟩
        have hnodup' : ((found ++ [(t, c)]).map (·.1)).Nodup := by
          rw [hkeys]
          exact hnodup.append (List.nodup_singleton _) (List.disjoint_singleton.mpr hknown)
        have hleft' : scope.length ≤ left + (found ++ [(t, c)]).length := by
          rw [List.length_append, List.length_singleton]
          omega
        obtain ⟨result, hresult⟩ := ih _ _ hwaiting' hfound' hnodup' hleft'
        exact ⟨result, .visit hknown hc hresult⟩

/-! ## What the loop finds -/

/-- What is added comes in the order in which it is met, first among the types that are waiting and
then among the delegates of what is added. -/
theorem Drains.exists_added {waiting : List String} {found result : List (String × Coverage)}
    (h : Drains cp settings waiting found result) :
    ∃ added, result = found ++ added ∧ (∀ e ∈ added, IsCoverage cp settings e.1 e.2) ∧
      added.map (·.1) = ((waiting ++ added.flatMap (·.2.delegates)).filter
        (· ∉ found.map (·.1))).eraseDups := by
  induction h with
  | done => exact ⟨[], by simp⟩
  | known hknown _ ih =>
    obtain ⟨added, hresult, hcoverage, horder⟩ := ih
    refine ⟨added, hresult, hcoverage, ?_⟩
    rw [horder, List.cons_append, List.filter_cons_of_neg (by simpa using hknown)]
  | @visit t c waiting found result hnew hcoverage _ ih =>
    obtain ⟨added, hresult, hadded, horder⟩ := ih
    refine ⟨(t, c) :: added, by rw [hresult]; simp, ?_, ?_⟩
    · exact List.forall_mem_cons.mpr ⟨hcoverage, hadded⟩
    · have hfilter (ts : List String) : ts.filter (· ∉ (found ++ [(t, c)]).map (·.1)) =
          (ts.filter (· ∉ found.map (·.1))).filter (fun t' => !t' == t) := by
        rw [List.filter_filter]
        apply List.filter_congr
        intro t' _
        rw [List.map_append, Bool.eq_iff_iff]
        simp
        tauto
      rw [List.map_cons, horder, List.flatMap_cons, List.cons_append,
        List.filter_cons_of_pos (by simpa using hnew), List.eraseDups_cons, ← hfilter]
      simp only [List.filter_append, List.filter_filter, Bool.and_self, List.append_assoc]

private theorem Drains.reaches {roots waiting : List String}
    {found result : List (String × Coverage)} (h : Drains cp settings waiting found result)
    (hwaiting : ∀ t ∈ waiting, Reaches cp settings roots t)
    (hfound : ∀ t ∈ found.map (·.1), Reaches cp settings roots t) :
    ∀ t ∈ result.map (·.1), Reaches cp settings roots t := by
  induction h with
  | done => exact hfound
  | known _ _ ih => exact ih (fun t ht => hwaiting t (List.mem_cons_of_mem _ ht)) hfound
  | @visit t c waiting found result _ hcoverage _ ih =>
    have hfirst : Reaches cp settings roots t := hwaiting t List.mem_cons_self
    apply ih
    · intro w hw
      rcases List.mem_append.mp hw with hrest | hnew
      · exact hwaiting w (List.mem_cons_of_mem _ hrest)
      · exact .delegate hfirst hcoverage (List.mem_of_mem_filter hnew)
    · intro w hw
      rw [List.map_append, List.mem_append] at hw
      rcases hw with hold | hnew
      · exact hfound w hold
      · have heq : w = t := by simpa using hnew
        exact heq ▸ hfirst

private theorem Drains.isCoverage {roots : List String} {result : List (String × Coverage)}
    (h : Drains cp settings roots [] result) :
    ∀ entry ∈ result, IsCoverage cp settings entry.1 entry.2 := by
  obtain ⟨_, rfl, hcoverage, -⟩ := h.exists_added
  exact hcoverage

theorem Drains.order {roots : List String} {result : List (String × Coverage)}
    (h : Drains cp settings roots [] result) :
    result.map (·.1) =
      (roots ++ (result.map (·.1)).flatMap (delegatesOf cp settings)).eraseDups := by
  obtain ⟨_, rfl, hcoverage, horder⟩ := h.exists_added
  have hdelegates : (result.map (·.1)).flatMap (delegatesOf cp settings) =
      result.flatMap (·.2.delegates) := by
    rw [List.flatMap_map]
    apply List.flatMap_congr
    intro entry hentry
    exact (hcoverage entry hentry).delegatesOf_eq
  have hall (ts : List String) :
      ts.filter (· ∉ ([] : List (String × Coverage)).map (·.1)) = ts :=
    List.filter_eq_self.mpr fun _ _ => rfl
  rw [hdelegates, ← hall (roots ++ _)]
  exact horder

/-- A list that holds the roots and the delegates of its members holds all that is reached. -/
theorem mem_of_reaches {roots keys : List String}
    (hclosed : roots ++ keys.flatMap (delegatesOf cp settings) ⊆ keys) {t : String}
    (h : Reaches cp settings roots t) : t ∈ keys := by
  induction h with
  | root hroot => exact hclosed (List.mem_append_left _ hroot)
  | @delegate t d c _ hc hd ih =>
    apply hclosed
    apply List.mem_append_right
    exact List.mem_flatMap.mpr ⟨t, ih, hc.delegatesOf_eq ▸ hd⟩

theorem Drains.isDiscoveryOrder {roots : List String} {result : List (String × Coverage)}
    (h : Drains cp settings roots [] result) :
    IsDiscoveryOrder cp settings roots (result.map (·.1)) := by
  have horder := h.order
  have hclosed : roots ++ (result.map (·.1)).flatMap (delegatesOf cp settings) ⊆
      result.map (·.1) := by
    intro t ht
    rw [horder]
    exact List.mem_eraseDups.mpr ht
  refine ⟨fun t => ⟨?_, mem_of_reaches hclosed⟩, horder⟩
  exact h.reaches (fun t ht => .root ht) (by simp) t

/-! ## There is one order -/

theorem IsDiscoveryOrder.nodup {roots keys : List String}
    (h : IsDiscoveryOrder cp settings roots keys) : keys.Nodup := by
  rw [h.2]
  exact Assoc.nodup_eraseDups _

/-- The types met by way of the first `n` types of an order. -/
def metThrough (cp : ClassPath) (settings : Settings) (roots keys : List String) (n : Nat) :
    List String :=
  (roots ++ (keys.take n).flatMap (delegatesOf cp settings)).eraseDups

theorem IsDiscoveryOrder.metThrough_prefix {roots keys : List String}
    (h : IsDiscoveryOrder cp settings roots keys) (n : Nat) :
    metThrough cp settings roots keys n <+: keys := by
  have hsplit : keys.flatMap (delegatesOf cp settings) =
      (keys.take n).flatMap (delegatesOf cp settings) ++
        (keys.drop n).flatMap (delegatesOf cp settings) := by
    rw [← List.flatMap_append, List.take_append_drop]
  have hprefix : metThrough cp settings roots keys n <+:
      (roots ++ (keys.take n).flatMap (delegatesOf cp settings) ++
        (keys.drop n).flatMap (delegatesOf cp settings)).eraseDups := by
    rw [List.eraseDups_append]
    exact List.prefix_append _ _
  rwa [List.append_assoc, ← hsplit, ← h.2] at hprefix

/-- If nothing is met beyond the first `n` types, then there are no more. -/
theorem IsDiscoveryOrder.length_le {roots keys : List String}
    (h : IsDiscoveryOrder cp settings roots keys) {n : Nat}
    (hmet : (metThrough cp settings roots keys n).length ≤ n) : keys.length ≤ n := by
  have hmetSub : metThrough cp settings roots keys n ⊆ keys.take n := by
    rw [List.prefix_iff_eq_take.mp (h.metThrough_prefix n)]
    exact List.take_subset_take_left _ hmet
  have hclosed : roots ++ (keys.take n).flatMap (delegatesOf cp settings) ⊆ keys.take n :=
    fun t ht => hmetSub (List.mem_eraseDups.mpr ht)
  have hsubset : keys ⊆ keys.take n := fun t ht => mem_of_reaches hclosed ((h.1 t).mp ht)
  have hle := (List.subperm_of_subset h.nodup hsubset).length_le
  rw [List.length_take] at hle
  omega

theorem IsDiscoveryOrder.unique {roots keys keys' : List String}
    (h : IsDiscoveryOrder cp settings roots keys)
    (h' : IsDiscoveryOrder cp settings roots keys') : keys = keys' := by
  have htake (n : Nat) : keys.take n = keys'.take n := by
    induction n with
    | zero => rfl
    | succ n ih =>
      have hmet : metThrough cp settings roots keys n = metThrough cp settings roots keys' n := by
        rw [metThrough, ih, metThrough]
      have hprefix := h.metThrough_prefix n
      have hprefix' := hmet ▸ h'.metThrough_prefix n
      by_cases hlength : n < (metThrough cp settings roots keys n).length
      · -- Something is met beyond the first `n` types, and both orders go on with it.
        have hnext := List.prefix_iff_eq_take.mp hprefix
        have hnext' := List.prefix_iff_eq_take.mp hprefix'
        have hsame := congrArg (List.take (n + 1)) (hnext.symm.trans hnext')
        rw [List.take_take, List.take_take, Nat.min_eq_left hlength] at hsame
        exact hsame
      · have hle : keys.length ≤ n := h.length_le (by omega)
        have hle' : keys'.length ≤ n := h'.length_le (by rw [← hmet]; omega)
        rw [List.take_of_length_le hle, List.take_of_length_le hle'] at ih
        rw [ih]
  have hall := htake (keys.length + keys'.length)
  rwa [List.take_of_length_le (by omega), List.take_of_length_le (by omega)] at hall

/-! ## The walk with a bound -/

theorem hasKey_eq_decide (t : String) (found : List (String × Coverage)) :
    Assoc.hasKey t found = decide (t ∈ found.map (·.1)) := by
  rw [Bool.eq_iff_iff, Assoc.hasKey_iff]
  simp

/-- A walk with enough steps for the types that the loop adds does what the loop does. -/
theorem Drains.visitAll_run {waiting : List String} {found result : List (String × Coverage)}
    (h : Drains cp settings waiting found result) {steps : Nat}
    (hsteps : result.length ≤ steps + found.length) {memo : Memo}
    (hmemo : memo.Faithful cp settings) :
    ((visitAll cp settings steps waiting found).run memo).1 = .ok result := by
  induction h generalizing steps memo with
  | done => cases steps <;> rfl
  | @known t waiting found result hknown hrest ih =>
    have hskip : visitAll cp settings steps (t :: waiting) found =
        visitAll cp settings steps waiting found := by
      cases steps with
      | zero => rfl
      | succ steps =>
        rw [visitAll, visitWith, visitWith,
          List.dropWhile_cons_of_pos (by simpa [hasKey_eq_decide] using hknown)]
    rw [hskip]
    exact ih hsteps hmemo
  | @visit t c waiting found result hnew hcoverage hrest ih =>
    obtain ⟨added, rfl, -⟩ := hrest.exists_added
    simp only [List.length_append, List.length_singleton] at hsteps ih
    cases steps with
    | zero => omega
    | succ steps =>
      have hdrop : (t :: waiting).dropWhile (Assoc.hasKey · found) = t :: waiting := by
        rw [List.dropWhile_cons_of_neg (by simpa [hasKey_eq_decide] using hnew)]
      have hreading : reading cp settings t = .ok (t, c) :=
        reading_eq_ok_iff.mpr ⟨rfl, hcoverage⟩
      have hrun := coverage_run_eq hmemo t
      rw [hreading] at hrun
      rw [visitAll, visitWith, ← visitAll]
      simp only [hdrop]
      rw [run_bind hrun]
      simp only [hasKey_eq_decide]
      have hsteps' : found.length + 1 + added.length ≤ steps + (found.length + 1) := by omega
      have hnext := ih hsteps' (hmemo.learn t)
      simpa using hnext

theorem Drains.length_le {roots : List String} {result : List (String × Coverage)}
    (h : Drains cp settings roots [] result) :
    result.length ≤ roots.length + (referencedTypes cp).length := by
  have hsub : result.map (·.1) ⊆ roots ++ referencedTypes cp := by
    intro t ht
    rw [h.order, List.mem_eraseDups] at ht
    rcases List.mem_append.mp ht with hroot | hdelegate
    · exact List.mem_append_left _ hroot
    · obtain ⟨t', -, hmem⟩ := List.mem_flatMap.mp hdelegate
      obtain ⟨c, hc, hd⟩ := exists_isCoverage_of_mem_delegatesOf hmem
      exact List.mem_append_right _ (delegates_subset_referencedTypes hc hd)
  have hle := (List.subperm_of_subset h.isDiscoveryOrder.nodup hsub).length_le
  simpa using hle

theorem Drains.unique {roots : List String} {result result' : List (String × Coverage)}
    (h : Drains cp settings roots [] result) (h' : Drains cp settings roots [] result') :
    result = result' := by
  have hrun := h.visitAll_run h.length_le (Memo.faithful_empty cp settings)
  have hrun' := h'.visitAll_run h'.length_le (Memo.faithful_empty cp settings)
  exact Except.ok.inj (hrun.symm.trans hrun')

/-! ## Types that the class path lacks -/

private theorem load_of_lacks {t : String} (h : cp.Lacks t) :
    cp.load t = .error (.unavailable (.typeNotFound (Naming.dotted t))) := by
  have hnone (entries : List ClassPathEntry) (hentries : ∀ entry ∈ entries,
      ClassPath.readEntry entry (ClassPath.resourceOf (Naming.dotted t)) = .ok none) :
      ClassPath.readFrom (ClassPath.resourceOf (Naming.dotted t)) entries = .ok none := by
    induction entries with
    | nil => rfl
    | cons entry entries ih =>
      rw [ClassPath.readFrom, hentries entry List.mem_cons_self]
      exact ih fun entry' hmem => hentries entry' (List.mem_cons_of_mem _ hmem)
  rw [ClassPath.load, ClassPath.read, hnone cp.entries h]
  rfl

private theorem isCoverage_of_lacks (settings : Settings) {t : String} (h : cp.Lacks t) :
    IsCoverage cp settings t { filterType := t } := by
  have htrace (methods : List String) (reason : Unavailable) : ∃ reason',
      traceFirst cp settings.inlineLambdas t reason methods = .error (.unavailable reason') := by
    cases methods with
    | nil => exact ⟨reason, rfl⟩
    | cons method methods =>
      refine ⟨.typeNotFound (Naming.dotted t), ?_⟩
      rw [traceFirst, ClassPath.trace, load_of_lacks h]
      rfl
  obtain ⟨reason, hreason⟩ := htrace settings.filterMethods (.noFilterMethod t)
  refine ⟨[.filterUnavailable t reason], ?_⟩
  rw [analyze, requestTrace, hreason]

/-- **Filters are found in the order in which they are met.** Whatever has been asked for before, on
a class path whose archives can all be opened the loop over the given types and the filters that
they make use of comes to an end. It has found the types that are reached, each once, with its
coverage and in the one order in which they are discovered. A type that the class path lacks has an
empty coverage, so the loop goes no further from it. -/
theorem coverageOfAll_discovers (cp : ClassPath) (settings : Settings) (earlier : List Request)
    (roots : List String) (hcp : cp.Intact) :
    ∃ found,
      ((coverageOfAll cp settings roots).run (serve cp settings earlier {}).2).1 = .ok found ∧
      (∀ result, Drains cp settings roots [] result ↔ result = found) ∧
      (found.map (·.1)).Nodup ∧
      (∀ t, t ∈ found.map (·.1) ↔ Reaches cp settings roots t) ∧
      (∀ keys, IsDiscoveryOrder cp settings roots keys ↔ keys = found.map (·.1)) ∧
      (∀ entry ∈ found, IsCoverage cp settings entry.1 entry.2) ∧
      ∀ t, cp.Lacks t → IsCoverage cp settings t { filterType := t } := by
  have hscope : ∀ t c, IsCoverage cp settings t c →
      c.delegates ⊆ roots ++ referencedTypes cp :=
    fun t c hc => List.subset_append_of_subset_right _ (delegates_subset_referencedTypes hc)
  obtain ⟨found, hfound⟩ := exists_drains hcp hscope (roots ++ referencedTypes cp).length roots []
    (List.subset_append_left _ _) (List.nil_subset _) List.nodup_nil (by simp)
  have hmemo : (serve cp settings earlier {}).2.Faithful cp settings := by
    rw [serve_eq earlier (Memo.faithful_empty cp settings)]
    exact (Memo.faithful_empty cp settings).foldl_learn _
  have horder := hfound.isDiscoveryOrder
  refine ⟨found, hfound.visitAll_run hfound.length_le hmemo, ?_, horder.nodup, horder.1, ?_,
    hfound.isCoverage, fun t => isCoverage_of_lacks settings⟩
  · intro result
    constructor
    · intro hresult
      exact hresult.unique hfound
    · intro heq
      exact heq ▸ hfound
  · intro keys
    constructor
    · intro hkeys
      exact hkeys.unique horder
    · intro heq
      exact heq ▸ horder

/-- The answer for two filters that make use of each other and one that the class path lacks. -/
def linkedAnswer : Except ScanError (List (String × Coverage)) :=
  ((coverageOfAll linkedPath { filterMethods := ["doFilter"] } ["BFilter", "CFilter"]).run
    (serve linkedPath { filterMethods := ["doFilter"] } [] {}).2).1

private theorem keys_linkedAnswer :
    linkedAnswer.toOption.map (·.map (·.1)) = some ["BFilter", "CFilter", "AFilter"] := by
  decide +kernel

theorem coverageOfAll_discovers_linkedPath :
    linkedPath.Intact ∧ linkedPath.Lacks "CFilter" ∧
    ∃ found, linkedAnswer = .ok found ∧
      found.map (·.1) = ["BFilter", "CFilter", "AFilter"] ∧
      ("CFilter", { filterType := "CFilter" }) ∈ found ∧
      Drains linkedPath { filterMethods := ["doFilter"] } ["BFilter", "CFilter"] [] found := by
  have hintact : linkedPath.Intact := by decide +kernel
  have hlacks : linkedPath.Lacks "CFilter" := by decide +kernel
  obtain ⟨found, hrun, hdrains, -, -, -, hcoverage, habsent⟩ :=
    coverageOfAll_discovers linkedPath { filterMethods := ["doFilter"] } []
      ["BFilter", "CFilter"] hintact
  have hanswer : linkedAnswer = .ok found := hrun
  have hkeys := keys_linkedAnswer
  rw [hanswer, Except.toOption, Option.map_some, Option.some_inj] at hkeys
  have hmem : "CFilter" ∈ found.map (·.1) := by
    rw [hkeys]
    simp
  obtain ⟨entry, hentry, hkey⟩ := List.mem_map.mp hmem
  have hfound : IsCoverage linkedPath { filterMethods := ["doFilter"] } "CFilter" entry.2 :=
    hkey ▸ hcoverage entry hentry
  have heq : entry = ("CFilter", { filterType := "CFilter" }) :=
    Prod.ext hkey (hfound.unique (habsent "CFilter" hlacks))
  exact ⟨hintact, hlacks, found, hanswer, hkeys, heq ▸ hentry, (hdrains found).mpr rfl⟩

end Filter

end EndpointAudit
