import EndpointAudit.Proofs.Route.Segments
import EndpointAudit.Proofs.Text.Trim
import Mathlib.Logic.Function.Iterate

/-!
# Normalizing a path again

White space is dropped from the ends of a path before the slashes behind its last segment are. What
stands in front of those slashes is then at the end of the normal form, where the next pass drops
it. So a normal form is normalized again without change unless the path has white space in front of
its last slashes.
-/

namespace EndpointAudit.Route

/-- A path, without the white space around it, has white space in front of the slashes at its
end. -/
def EndsInBlank (path : String) : Prop :=
  ∃ before blank slashes, (Text.strip path).toList = before ++ blank :: slashes ∧
    Text.isBlank blank = true ∧ ∀ c ∈ slashes, c = '/'

/-! ## The segments of a normal form -/

private theorem flatten_segmentChars (cs : List Char) :
    (segmentChars cs).flatten = cs.filter (· ≠ '/') := by
  rw [← Text.flatten_splitAtChar, segmentChars]
  exact List.flatten_filter_ne_nil

theorem segmentChars_append_cons (cs rest : List Char) :
    segmentChars (cs ++ '/' :: rest) = segmentChars cs ++ segmentChars rest := by
  simp only [segmentChars, Text.splitAtChar_eq_splitOn, List.splitOn]
  rw [List.splitOnP_append_cons _ _ (by simp), List.filter_append]

theorem segmentChars_of_not_mem {part : List Char} (h : '/' ∉ part) :
    segmentChars part = [part].filter (· ≠ []) := by
  rw [segmentChars, Text.splitAtChar_of_not_mem h]

theorem slashed_concat (before : List (List Char)) (last : List Char) :
    slashed (before ++ [last]) = slashed before ++ '/' :: last := by
  simp [slashed]

theorem segmentChars_slashed {parts : List (List Char)} (h : ∀ p ∈ parts, IsSegment p) :
    segmentChars (slashed parts) = parts := by
  induction parts using List.reverseRecOn with
  | nil => rfl
  | append_singleton before last ih =>
    obtain ⟨hne, hslash⟩ := h last (by simp)
    rw [slashed_concat, segmentChars_append_cons, ih fun p hp => h p (by simp [hp]),
      segmentChars_of_not_mem hslash]
    simp [hne]

theorem segmentChars_normalizeChars (path : List Char) :
    segmentChars (normalizeChars path) = segmentChars (Text.trim Text.isBlank path) := by
  rw [normalizeChars_eq]
  split
  · next h =>
    rw [h]
    rfl
  · exact segmentChars_slashed fun p hp => isSegment_of_mem hp

private theorem normalizeChars_eq_iff (path other : List Char) :
    normalizeChars path = normalizeChars other ↔
      segmentChars (Text.trim Text.isBlank path) = segmentChars (Text.trim Text.isBlank other) := by
  constructor
  · intro h
    rw [← segmentChars_normalizeChars, h, segmentChars_normalizeChars]
  · intro h
    rw [normalizeChars_eq, normalizeChars_eq, h]

/-! ## The second pass -/

/-- A second pass drops the white space at the end of the last segment, and the segment with it if
nothing else is left. -/
theorem segmentChars_trim_slashed {before : List (List Char)} {last : List Char}
    (h : ∀ p ∈ before ++ [last], IsSegment p) :
    segmentChars (Text.trim Text.isBlank (slashed (before ++ [last]))) =
      before ++ [Text.dropEnd Text.isBlank last].filter (· ≠ []) := by
  have hslash : Text.isBlank '/' = false := by decide
  have hfront :
      (slashed (before ++ [last])).dropWhile Text.isBlank = slashed (before ++ [last]) := by
    cases before <;> simp [hslash]
  have hlast : '/' ∉ Text.dropEnd Text.isBlank last := fun hmem =>
    (h last (by simp)).2 ((List.rdropWhile_prefix _ _).subset hmem)
  rw [Text.trim, hfront, slashed_concat, Text.dropEnd_append_cons hslash, segmentChars_append_cons,
    segmentChars_slashed fun p hp => h p (by simp [hp]), segmentChars_of_not_mem hlast]

private theorem prefix_normalizeChars_twice (path : List Char) :
    normalizeChars (normalizeChars path) <+: normalizeChars path := by
  have hsegments : ∀ p ∈ segmentChars (Text.trim Text.isBlank path), IsSegment p :=
    fun p hp => isSegment_of_mem hp
  rw [normalizeChars_eq path]
  rcases List.eq_nil_or_concat (segmentChars (Text.trim Text.isBlank path)) with
    hnil | ⟨before, last, hconcat⟩
  · rw [hnil]
    exact List.prefix_refl _
  · rw [List.concat_eq_append] at hconcat
    rw [hconcat] at hsegments ⊢
    rw [if_neg (by simp), normalizeChars_eq, segmentChars_trim_slashed hsegments, slashed_concat]
    by_cases hblank : Text.dropEnd Text.isBlank last = []
    · cases before with
      | nil => simp [hblank]
      | cons first before => simp [hblank]
    · have hkept : Text.dropEnd Text.isBlank last <+: last := List.rdropWhile_prefix _ _
      simp only [hblank, List.filter_cons_of_pos, ne_eq, not_false_eq_true, decide_true,
        List.filter_nil, List.append_eq_nil_iff, List.cons_ne_self, and_false, if_false,
        slashed_concat]
      exact (List.prefix_append_right_inj _).mpr (List.cons_prefix_cons.mpr ⟨rfl, hkept⟩)

private theorem endsInBlank_iff (path : String) :
    EndsInBlank path ↔ ∃ blank, ((segmentChars (Text.strip path).toList).flatten).getLast? =
      some blank ∧ Text.isBlank blank = true := by
  rw [flatten_segmentChars]
  constructor
  · intro ⟨before, blank, slashes, hpath, hblank, hslashes⟩
    have hkept : blank ≠ '/' := by
      intro heq
      rw [heq] at hblank
      revert hblank
      decide
    have hdropped : slashes.filter (· ≠ '/') = [] := by
      simpa using hslashes
    refine ⟨blank, ?_, hblank⟩
    rw [hpath, List.filter_append, List.filter_cons_of_pos (by simpa using hkept), hdropped]
    simp
  · intro ⟨blank, hlast, hblank⟩
    rw [List.getLast?_filter, List.find?_eq_some_iff_append] at hlast
    obtain ⟨-, slashes, before, hpath, hslashes⟩ := hlast
    refine ⟨before.reverse, blank, slashes.reverse, ?_, hblank, ?_⟩
    · rw [← List.reverse_reverse (Text.strip path).toList, hpath]
      simp
    · simpa using hslashes

private theorem normalizeChars_twice_eq_iff (path : String) :
    normalizeChars (normalizeChars path.toList) = normalizeChars path.toList ↔
      ¬ EndsInBlank path := by
  have hstrip : Text.trim Text.isBlank path.toList = (Text.strip path).toList :=
    String.toList_ofList.symm
  have hsegments : ∀ p ∈ segmentChars (Text.strip path).toList, IsSegment p :=
    fun p hp => isSegment_of_mem hp
  rw [normalizeChars_eq_iff, normalizeChars_eq, hstrip, endsInBlank_iff]
  rcases List.eq_nil_or_concat (segmentChars (Text.strip path).toList) with
    hnil | ⟨before, last, hconcat⟩
  · have hroot : segmentChars (Text.trim Text.isBlank ['/']) = [] := by decide
    simp [hnil, hroot]
  · rw [List.concat_eq_append] at hconcat
    rw [hconcat] at hsegments ⊢
    have hne : last ≠ [] := (hsegments last (by simp)).1
    have hkept : (∃ blank, last.getLast? = some blank ∧ Text.isBlank blank = true) ↔
        Text.dropEnd Text.isBlank last ≠ last := by
      rw [ne_eq, Text.dropEnd_eq_self_iff]
      simp
    have hflatten : (before ++ [last]).flatten.getLast? = last.getLast? := by
      simp [List.getLast?_append, List.getLast?_eq_some_getLast hne]
    rw [if_neg (by simp), segmentChars_trim_slashed hsegments, List.append_cancel_left_eq, hflatten,
      hkept, not_not]
    by_cases hempty : Text.dropEnd Text.isBlank last = []
    · simp [hempty, Ne.symm hne]
    · simp [hempty]

theorem prefix_normalize_twice (path : String) :
    (normalize (normalize path)).toList <+: (normalize path).toList := by
  simp only [normalize, String.toList_ofList]
  exact prefix_normalizeChars_twice path.toList

private theorem normalize_twice_eq_iff (path : String) :
    normalize (normalize path) = normalize path ↔ ¬ EndsInBlank path := by
  rw [← normalizeChars_twice_eq_iff, ← String.toList_inj]
  simp only [normalize, String.toList_ofList]

/-! ## Further passes -/

private theorem exists_iterate_fixed (path : String) :
    ∃ n, ∀ m, n ≤ m → normalize^[m] path = normalize^[n] path := by
  -- A pass that changes a normal form shortens it.
  induction h : (normalize path).toList.length using Nat.strongRecOn generalizing path with
  | ind length ih =>
    by_cases hfixed : normalize (normalize path) = normalize path
    · refine ⟨1, fun m hm => ?_⟩
      obtain ⟨k, rfl⟩ := Nat.exists_eq_add_of_le' hm
      rw [Function.iterate_succ_apply, Function.iterate_one]
      exact Function.iterate_fixed hfixed k
    · have hstart := prefix_normalize_twice path
      have hshorter : (normalize (normalize path)).toList.length < length := by
        apply Nat.lt_of_le_of_ne (h ▸ hstart.length_le)
        intro hlength
        exact hfixed (String.toList_inj.mp (hstart.eq_of_length (hlength.trans h.symm)))
      obtain ⟨n, hn⟩ := ih _ hshorter (normalize path) rfl
      refine ⟨n + 1, fun m hm => ?_⟩
      obtain ⟨k, rfl⟩ := Nat.exists_eq_add_of_le' (Nat.le_trans (Nat.le_add_left 1 n) hm)
      rw [Function.iterate_succ_apply, Function.iterate_succ_apply]
      exact hn k (by omega)

/-- **What further passes do.** A second pass leaves the normal form as it is exactly if the path
has no white space in front of its last slashes; otherwise it leaves a shorter beginning of it. In
the end further passes change nothing. -/
theorem normalize_again (path : String) :
    (normalize (normalize path) = normalize path ↔ ¬ EndsInBlank path) ∧
      (normalize (normalize path)).toList <+: (normalize path).toList ∧
      ∃ n, ∀ m, n ≤ m → normalize^[m] path = normalize^[n] path :=
  ⟨normalize_twice_eq_iff path, prefix_normalize_twice path, exists_iterate_fixed path⟩

/-- One pass leaves the blank of `"a /"` at the end, and the next one drops it. -/
theorem normalize_blankSlash : normalize (normalize "a /") ≠ normalize "a /" := by decide

example : normalize "a / /" = "/a / " ∧ normalize^[2] "a / /" = "/a " ∧
    normalize^[3] "a / /" = "/a" := by decide

end EndpointAudit.Route
