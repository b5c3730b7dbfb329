import EndpointAudit.Proofs.Text.Split
import EndpointAudit.Route
import Mathlib.Data.List.DropRight
import Mathlib.Data.List.Infix

/-!
# Paths as lists of segments

The normal form of a path writes a slash in front of each of its segments. Comparing a pattern with
a path therefore comes down to comparing two lists of segments, and no segment is ever matched in
part.
-/

namespace EndpointAudit.Route

/-- The non-empty parts between the slashes of a list of characters. -/
def segmentChars (cs : List Char) : List (List Char) :=
  (Text.splitAtChar '/' cs).filter (· ≠ [])

/-- The segments of a path: the non-empty parts between its slashes, without the white space around
the path. -/
def segments (path : String) : List String :=
  (Text.splitOn '/' (Text.strip path)).filter (· ≠ "")

theorem map_toList_segments (path : String) :
    (segments path).map String.toList = segmentChars (Text.trim Text.isBlank path.toList) := by
  rw [segments, Text.splitOn, Text.strip, String.toList_ofList, List.filter_map, List.map_map]
  simp [segmentChars, Function.comp_def]

def IsSegment (part : List Char) : Prop := part ≠ [] ∧ '/' ∉ part

theorem isSegment_of_mem {cs part : List Char} (h : part ∈ segmentChars cs) : IsSegment part := by
  obtain ⟨hmem, hne⟩ := List.mem_filter.mp h
  exact ⟨by simpa using hne, Text.sep_not_mem_of_mem_splitAtChar hmem⟩

/-! ## The normal form -/

/-- Segments with a slash in front of each. -/
def slashed (parts : List (List Char)) : List Char := parts.flatMap ('/' :: ·)

@[simp] theorem slashed_nil : slashed [] = [] := rfl

@[simp] theorem slashed_cons (part : List Char) (parts : List (List Char)) :
    slashed (part :: parts) = '/' :: (part ++ slashed parts) := by
  simp [slashed]

/-- The slash at the end of a list of characters, if there is one. -/
def finalSlash (cs : List Char) : List Char := cs.getLast?.toList.filter (· = '/')

theorem finalSlash_cons_cons (c d : Char) (cs : List Char) :
    finalSlash (c :: d :: cs) = finalSlash (d :: cs) := by
  simp [finalSlash]

theorem finalSlash_eq (cs : List Char) : finalSlash cs = [] ∨ finalSlash cs = ['/'] := by
  cases hlast : cs.getLast? with
  | none => simp [finalSlash, hlast]
  | some c => by_cases hc : c = '/' <;> simp [finalSlash, hlast, hc]

/-- Collapsing the slashes drops the empty parts, except that a final slash stays. -/
theorem collapseSlashes_eq {cs part : List Char} {parts : List (List Char)}
    (h : Text.splitAtChar '/' cs = part :: parts) :
    collapseSlashes cs = part ++ (slashed (parts.filter (· ≠ [])) ++ finalSlash cs) := by
  fun_induction collapseSlashes cs generalizing part parts with
  | case1 =>
    cases h
    rfl
  | case2 c =>
    by_cases hc : c = '/'
    · subst hc
      cases h
      rfl
    · rw [Text.splitAtChar_cons_of_ne hc rfl] at h
      cases h
      simp [finalSlash, hc]
  | case3 c d rest hslashes ih =>
    obtain ⟨rfl, rfl⟩ := hslashes
    rw [Text.splitAtChar_cons_self, Text.splitAtChar_cons_self] at h
    cases h
    rw [ih (Text.splitAtChar_cons_self '/' rest), finalSlash_cons_cons]
    simp
  | case4 c d rest hslashes ih =>
    rw [finalSlash_cons_cons]
    by_cases hc : c = '/'
    · -- The segment that begins behind the slash is not empty, so the slash is its own.
      have hd : d ≠ '/' := fun hd => hslashes ⟨hc, hd⟩
      obtain ⟨first, others, hrest⟩ := Text.exists_splitAtChar_eq_cons '/' rest
      have hsplit := Text.splitAtChar_cons_of_ne hd hrest
      rw [hc, Text.splitAtChar_cons_self, hsplit] at h
      cases h
      rw [ih hsplit, hc]
      simp
    · obtain ⟨first, others, hsplit⟩ := Text.exists_splitAtChar_eq_cons '/' (d :: rest)
      rw [Text.splitAtChar_cons_of_ne hc hsplit] at h
      cases h
      rw [ih hsplit, List.cons_append]

private theorem collapseSlashes_ne_nil (c : Char) (cs : List Char) :
    collapseSlashes (c :: cs) ≠ [] := by
  induction cs generalizing c with
  | nil => simp [collapseSlashes]
  | cons d rest ih =>
    rw [collapseSlashes]
    split
    · exact ih d
    · simp

theorem dropEnd_slashed {parts : List (List Char)} (h : ∀ p ∈ parts, IsSegment p) :
    Text.dropEnd (· == '/') (slashed parts) = slashed parts := by
  rcases List.eq_nil_or_concat parts with rfl | ⟨before, last, rfl⟩
  · rfl
  · obtain ⟨hne, hslash⟩ := h last (by simp)
    rcases List.eq_nil_or_concat last with rfl | ⟨start, c, rfl⟩
    · exact absurd rfl hne
    · have hc : c ≠ '/' := by
        intro hc
        simp [hc] at hslash
      have hlast : slashed (before ++ [start ++ [c]]) = slashed before ++ '/' :: start ++ [c] := by
        simp [slashed]
      rw [List.concat_eq_append, List.concat_eq_append, hlast]
      exact List.rdropWhile_concat_neg _ _ _ (by simpa using hc)

/-- The normal form of a path, written from its segments. -/
theorem normalizeChars_eq (path : List Char) :
    normalizeChars path = if segmentChars (Text.trim Text.isBlank path) = [] then ['/']
      else slashed (segmentChars (Text.trim Text.isBlank path)) := by
  generalize hcs : Text.trim Text.isBlank path = cs
  have hcollapse : collapseSlashes ('/' :: cs) =
      slashed (segmentChars cs) ++ finalSlash ('/' :: cs) :=
    collapseSlashes_eq (Text.splitAtChar_cons_self '/' cs)
  have hsegments : ∀ p ∈ segmentChars cs, IsSegment p := fun p hp => isSegment_of_mem hp
  have hne := collapseSlashes_ne_nil '/' cs
  simp only [normalizeChars, hcs]
  cases hparts : segmentChars cs with
  | nil =>
    rw [hparts, slashed_nil, List.nil_append] at hcollapse
    rcases finalSlash_eq ('/' :: cs) with hfinal | hfinal
    · exact absurd (hcollapse.trans hfinal) hne
    · rw [hcollapse, hfinal]
      rfl
  | cons part parts =>
    rw [hparts] at hcollapse hsegments
    have hlen : 1 < (collapseSlashes ('/' :: cs)).length := by
      have hpart := List.length_pos_iff.mpr (hsegments part (by simp)).1
      rw [hcollapse, slashed_cons, List.cons_append, List.length_cons, List.length_append,
        List.length_append]
      omega
    rw [if_pos hlen, if_neg (by simp), hcollapse]
    rcases finalSlash_eq ('/' :: cs) with hfinal | hfinal
    · rw [hfinal, List.append_nil, dropEnd_slashed hsegments]
    · rw [hfinal]
      exact (List.rdropWhile_concat_pos _ _ _ rfl).trans (dropEnd_slashed hsegments)

theorem toList_normalize (path : String) :
    (normalize path).toList = if segments path = [] then ['/']
      else slashed ((segments path).map String.toList) := by
  rw [normalize, String.toList_ofList, normalizeChars_eq, ← map_toList_segments]
  simp only [List.map_eq_nil_iff]

theorem isSegment_of_mem_segments (path : String) :
    ∀ p ∈ (segments path).map String.toList, IsSegment p := by
  intro p hp
  rw [map_toList_segments] at hp
  exact isSegment_of_mem hp

theorem normalize_eq_root_iff (path : String) : normalize path = "/" ↔ segments path = [] := by
  rw [← String.toList_inj, toList_normalize]
  cases hsegments : segments path with
  | nil => simp
  | cons segment more =>
    have hne := (isSegment_of_mem_segments path segment.toList (by simp [hsegments])).1
    simp [hne]

/-! ## Comparing paths -/

/-- Where a path goes on behind whole segments: nowhere, or with a slash. -/
def AtBoundary (cs : List Char) : Prop := cs = [] ∨ ∃ rest, cs = '/' :: rest

private theorem atBoundary_slashed (parts : List (List Char)) : AtBoundary (slashed parts) := by
  cases parts with
  | nil => exact .inl rfl
  | cons part parts => exact .inr ⟨_, slashed_cons part parts⟩

theorem takeWhile_append_of_atBoundary {part tail : List Char} (hpart : '/' ∉ part)
    (htail : AtBoundary tail) : (part ++ tail).takeWhile (· ≠ '/') = part := by
  have hall : ∀ c ∈ part, decide (c ≠ '/') = true := by
    intro c hc
    rw [decide_eq_true_iff]
    intro heq
    exact hpart (heq ▸ hc)
  rw [List.takeWhile_append_of_pos hall]
  rcases htail with rfl | ⟨rest, rfl⟩ <;> simp

theorem prefix_of_slashed_eq {literal parts : List (List Char)}
    (hliteral : ∀ p ∈ literal, IsSegment p) (hparts : ∀ p ∈ parts, IsSegment p)
    {tail : List Char} (htail : AtBoundary tail) (h : slashed parts = slashed literal ++ tail) :
    literal <+: parts := by
  induction literal generalizing parts with
  | nil => exact List.nil_prefix
  | cons first literal ih =>
    cases parts with
    | nil => simp at h
    | cons part parts =>
      have hboundary : AtBoundary (slashed literal ++ tail) := by
        cases literal with
        | nil => exact htail
        | cons next literal => exact .inr ⟨_, rfl⟩
      simp only [slashed_cons, List.cons_append, List.cons.injEq, List.append_assoc] at h
      -- Both sides have their first slash right behind their first segment.
      have hfirst : part = first := by
        rw [← takeWhile_append_of_atBoundary (hparts part (by simp)).2 (atBoundary_slashed parts),
          h.2, takeWhile_append_of_atBoundary (hliteral first (by simp)).2 hboundary]
      subst hfirst
      have hrest := ih (fun p hp => hliteral p (by simp [hp])) (fun p hp => hparts p (by simp [hp]))
        (List.append_cancel_left h.2)
      exact List.cons_prefix_cons.mpr ⟨rfl, hrest⟩

private theorem slashed_prefix_iff {literal parts : List (List Char)}
    (hliteral : ∀ p ∈ literal, IsSegment p) (hparts : ∀ p ∈ parts, IsSegment p) :
    (slashed parts = slashed literal ∨ slashed literal ++ ['/'] <+: slashed parts) ↔
      literal <+: parts := by
  constructor
  · intro h
    rcases h with heq | ⟨rest, hrest⟩
    · exact prefix_of_slashed_eq hliteral hparts (.inl rfl) (by rw [heq, List.append_nil])
    · refine prefix_of_slashed_eq hliteral hparts (.inr ⟨rest, rfl⟩) ?_
      rw [← hrest, List.append_assoc, List.singleton_append]
  · intro h
    obtain ⟨more, rfl⟩ := h
    have happend : slashed (literal ++ more) = slashed literal ++ slashed more := by simp [slashed]
    rw [happend]
    cases more with
    | nil => exact .inl (by simp)
    | cons part more => exact .inr (by simp)

/-- A normal form is equal to another one or goes on behind it with a slash. -/
theorem normalize_extends_iff {base path : String} (hbase : segments base ≠ []) :
    (normalize path = normalize base ∨
      Text.startsWith (normalize path) (normalize base ++ "/") = true) ↔
      segments base <+: segments path := by
  rw [Text.startsWith_iff, String.toList_append, ← String.toList_inj, toList_normalize base,
    if_neg hbase]
  by_cases hpath : segments path = []
  · obtain ⟨first, more, hcons⟩ := List.exists_cons_of_ne_nil hbase
    have hne := (isSegment_of_mem_segments base first.toList (by simp [hcons])).1
    rw [toList_normalize, if_pos hpath, hpath, hcons]
    simp [hne]
  · rw [toList_normalize, if_neg hpath,
      ← List.prefix_map_iff_of_injective (f := String.toList) fun _ _ => String.toList_injective]
    exact slashed_prefix_iff (isSegment_of_mem_segments base) (isSegment_of_mem_segments path)

/-! ## Patterns -/

/-- A pattern without `/**` at its end, or else without `/*` at its end. -/
def withoutGlob (pattern : String) : String :=
  let cs := pattern.toList
  String.ofList (((cs.dropSuffix? "/**".toList).or (cs.dropSuffix? "/*".toList)).getD cs)

theorem segments_orRoot (base : String) : segments (patternBase.orRoot base) = segments base := by
  rw [patternBase.orRoot]
  split
  · next h =>
    rw [h]
    decide
  · rfl

theorem dropSuffix?_of_endsWith {text ending : String} (h : Text.endsWith text ending = true) :
    text.toList.dropSuffix? ending.toList =
      some (Text.dropLast ending.toList.length text).toList := by
  obtain ⟨base, hbase⟩ := (Text.endsWith_iff text ending).mp h
  rw [List.dropSuffix?_eq_some_iff]
  refine ⟨ending.toList, ?_, beq_self_eq_true _⟩
  rw [Text.dropLast, String.toList_ofList, ← hbase]
  simp

theorem dropSuffix?_of_not_endsWith {text ending : String}
    (h : Text.endsWith text ending = false) : text.toList.dropSuffix? ending.toList = none := by
  rw [Option.eq_none_iff_forall_ne_some]
  intro base hbase
  obtain ⟨last, htext, hlast⟩ := List.dropSuffix?_eq_some_iff.mp hbase
  rw [eq_of_beq hlast] at htext
  have hends : Text.endsWith text ending = true := by
    rw [Text.endsWith_iff, htext]
    exact List.suffix_append base _
  simp [hends] at h

private theorem segments_patternBase (pattern : String) :
    segments (patternBase pattern) = segments (withoutGlob pattern) := by
  rw [patternBase, withoutGlob]
  by_cases hsubtree : Text.endsWith pattern "/**" = true
  · rw [if_pos hsubtree, segments_orRoot, dropSuffix?_of_endsWith hsubtree]
    simp
  · rw [if_neg hsubtree, dropSuffix?_of_not_endsWith (by simpa using hsubtree)]
    by_cases hchildren : Text.endsWith pattern "/*" = true
    · rw [if_pos hchildren, segments_orRoot, dropSuffix?_of_endsWith hchildren]
      simp
    · rw [if_neg hchildren, dropSuffix?_of_not_endsWith (by simpa using hchildren)]
      simp

/-- **A pattern covers whole segments.** Apart from the wildcard, a pattern without segments covers
the root alone, and every other pattern covers the paths that its segments begin. -/
theorem covers_iff_segments (pattern path : String) :
    covers pattern path = true ↔ pattern = wildcard ∨
      (segments (withoutGlob pattern) = [] ∧ segments path = []) ∨
      (segments (withoutGlob pattern) ≠ [] ∧
        segments (withoutGlob pattern) <+: segments path) := by
  rw [← segments_patternBase, covers]
  generalize patternBase pattern = base
  by_cases hwildcard : pattern = wildcard
  · simp [hwildcard]
  rw [if_neg hwildcard]
  simp only [normalize_eq_root_iff, hwildcard, false_or]
  by_cases hbase : segments base = []
  · simp [hbase, normalize_eq_root_iff]
  · simp only [hbase, if_false, false_and, ne_eq, not_false_eq_true, true_and, false_or,
      Bool.or_eq_true, beq_iff_eq]
    exact normalize_extends_iff hbase

example : segments (withoutGlob " //admin//**") = ["admin"] ∧
    segments "/admin /users/ " = ["admin ", "users"] := by decide

end EndpointAudit.Route
