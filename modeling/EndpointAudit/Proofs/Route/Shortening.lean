import EndpointAudit.Proofs.Text.Split
import EndpointAudit.Proofs.Text.Trim
import EndpointAudit.Route
import Mathlib.Data.List.Infix

/-!
# Shortened paths

A path that is too long keeps its first segment and as many of its last ones as fit behind an
ellipsis. The segments are taken from the end one by one, and none that is left out would still
fit. Where nothing is kept or nothing is left out, the path is cut off instead.
-/

namespace EndpointAudit.Route

/-- A path with an ellipsis between its first segment and its last ones. -/
def abridged (head : String) (tail : List String) : String :=
  "/" ++ head ++ "/.../" ++ Text.join "/" tail

/-- The parts between the slashes of a path without the slashes at its ends. -/
structure IsDivided (path : String) (parts : List String) : Prop where
  nonempty : parts ≠ []
  plain : ∀ part ∈ parts, '/' ∉ part.toList
  begins : (Text.join "/" parts).toList.head? ≠ some '/'
  ends : (Text.join "/" parts).toList.getLast? ≠ some '/'
  outer : ∃ m n, path.toList =
    List.replicate m '/' ++ (Text.join "/" parts).toList ++ List.replicate n '/'

/-- The longest ending of a list of segments that fits behind a first segment and an ellipsis; the
empty one if none does. -/
structure IsLongestFitting (head : String) (width : Int) (segments tail : List String) :
    Prop where
  suffix : tail <:+ segments
  fits : tail ≠ [] → (abridged head tail).length ≤ width
  longest : ∀ other, other <:+ segments → other ≠ [] → (abridged head other).length ≤ width →
    other.length ≤ tail.length

/-! ## Segments from the end -/

theorem toList_join_cons (part : String) {parts : List String} (h : parts ≠ []) :
    (Text.join "/" (part :: parts)).toList =
      part.toList ++ '/' :: (Text.join "/" parts).toList := by
  obtain ⟨next, more, rfl⟩ := List.exists_cons_of_ne_nil h
  have hsep : "/".toList = ['/'] := by decide
  rw [Text.toList_join hsep, Text.toList_join hsep]
  simp

theorem join_eq_abridged (head : String) {tail : List String} (h : tail ≠ []) :
    Text.join "/" (("/" ++ head) :: ellipsis :: tail) = abridged head tail := by
  rw [← String.toList_inj, toList_join_cons _ (by simp), toList_join_cons _ h]
  simp [abridged, ellipsis]

private theorem length_abridged_cons (head segment : String) {tail : List String} (h : tail ≠ []) :
    (abridged head (segment :: tail)).length =
      (abridged head tail).length + segment.length + 1 := by
  simp only [abridged, ← String.length_toList, String.toList_append, toList_join_cons segment h,
    List.length_append, List.length_cons]
  omega

private theorem length_abridged_le (head : String) {tail longer : List String} (h : tail ≠ [])
    (hsuffix : tail <:+ longer) : (abridged head tail).length ≤ (abridged head longer).length := by
  obtain ⟨more, rfl⟩ := hsuffix
  induction more with
  | nil => simp
  | cons segment more ih =>
    rw [List.cons_append, length_abridged_cons head segment (by simp [h])]
    omega

private theorem isLongestFitting_fittingTail (head : String) (width : Int)
    (before kept : List String) (h : kept ≠ [] → (abridged head kept).length ≤ width) :
    IsLongestFitting head width (before.reverse ++ kept)
      (fittingTail ("/" ++ head) width before kept) := by
  induction before generalizing kept with
  | nil => exact ⟨List.suffix_refl _, h, fun other hother _ _ => hother.length_le⟩
  | cons segment before ih =>
    have hrest : (segment :: before).reverse ++ kept = before.reverse ++ segment :: kept := by simp
    rw [hrest, fittingTail, join_eq_abridged head (by simp)]
    split
    · next htoo =>
      refine ⟨⟨before.reverse ++ [segment], by simp⟩, h, fun other hother hne hfits => ?_⟩
      -- Whatever is longer than what is kept ends in the segment that no longer fits.
      by_contra hlonger
      have hsuffix : segment :: kept <:+ other := by
        apply List.suffix_of_suffix_length_le (List.suffix_append _ _) hother
        simp only [List.length_cons]
        omega
      have hle := length_abridged_le head (by simp) hsuffix
      omega
    · next hfits => exact ih (segment :: kept) fun _ => by omega

/-! ## The segments of a path -/

private theorem isDivided_splitAtChar (path : String) :
    IsDivided path
      ((Text.splitAtChar '/' (Text.trim (· == '/') path.toList)).map String.ofList) := by
  have hjoin : Text.join "/" ((Text.splitAtChar '/' (Text.trim (· == '/') path.toList)).map
      String.ofList) = String.ofList (Text.trim (· == '/') path.toList) := by
    have h := Text.join_splitOn (show "/".toList = ['/'] by decide)
      (String.ofList (Text.trim (· == '/') path.toList))
    rwa [Text.splitOn, String.toList_ofList] at h
  have hreplicate : ∀ cs : List Char, (∀ c ∈ cs, (c == '/') = true) →
      cs = List.replicate cs.length '/' := fun cs hcs =>
    List.eq_replicate_of_mem fun c hc => by simpa using hcs c hc
  constructor
  · obtain ⟨part, parts, hsplit⟩ :=
      Text.exists_splitAtChar_eq_cons '/' (Text.trim (· == '/') path.toList)
    simp [hsplit]
  · intro part hpart
    obtain ⟨cs, hcs, rfl⟩ := List.mem_map.mp hpart
    rw [String.toList_ofList]
    exact Text.sep_not_mem_of_mem_splitAtChar hcs
  · rw [hjoin, String.toList_ofList]
    intro h
    simpa using Text.head?_trim h
  · rw [hjoin, String.toList_ofList]
    intro h
    simpa using Text.getLast?_trim h
  · obtain ⟨before, behind, heq, hbefore, hbehind⟩ :=
      Text.exists_eq_append_trim (· == '/') path.toList
    refine ⟨before.length, behind.length, ?_⟩
    rw [hjoin, String.toList_ofList, ← hreplicate before hbefore, ← hreplicate behind hbehind]
    exact heq

/-! ## Shortening -/

/-- A path that is too long, shortened. -/
theorem shorten_of_lt {path : String} {width : Int} (h : width < path.length) :
    ∃ head segments tail, IsDivided path (head :: segments) ∧
      IsLongestFitting head width segments tail ∧
      shorten path width = if tail ≠ [] ∧ tail ≠ segments then abridged head tail
        else String.ofList (Text.takeSigned (width - 3) path.toList) ++ ellipsis := by
  have hdivided := isDivided_splitAtChar path
  rw [shorten, if_neg (by omega)]
  generalize (Text.splitAtChar '/' (Text.trim (· == '/') path.toList)).map String.ofList = parts
    at hdivided
  obtain ⟨head, segments, rfl⟩ := List.exists_cons_of_ne_nil hdivided.nonempty
  have hlongest := isLongestFitting_fittingTail head width segments.reverse [] (by simp)
  rw [List.reverse_reverse, List.append_nil] at hlongest
  refine ⟨head, segments, _, hdivided, hlongest, ?_⟩
  generalize hkept : fittingTail ("/" ++ head) width segments.reverse [] = tail at hlongest
  simp only [List.headD_cons, List.tail_cons, hkept, List.length_cons, Nat.add_sub_cancel]
  have hall : tail.length < segments.length ↔ tail ≠ segments := by
    constructor
    · intro hlt heq
      simp [heq] at hlt
    · intro hne
      exact Nat.lt_of_le_of_ne hlongest.suffix.length_le
        fun hlength => hne (hlongest.suffix.eq_of_length hlength)
  by_cases hnil : tail = []
  · simp [hnil]
  · rw [join_eq_abridged head hnil]
    simp [hnil, hall]

/-- **What a shortened path looks like.** It fits, and a path that fits is left alone. Of a longer
one the first segment stays and the longest ending of the others that fits behind an ellipsis; where
that is none of them or all, the path is cut off instead. -/
theorem shorten_outcome (path : String) (width : Int) (h : 3 ≤ width) :
    (shorten path width).length ≤ width ∧
      (path.length ≤ width → shorten path width = path) ∧
      (width < path.length → ∃ head segments tail, IsDivided path (head :: segments) ∧
        IsLongestFitting head width segments tail ∧
        (tail ≠ [] ∧ tail ≠ segments → shorten path width = abridged head tail) ∧
        (tail = [] ∨ tail = segments → shorten path width =
          String.ofList (path.toList.take (width - 3).toNat) ++ "...")) := by
  have hfits : path.length ≤ width → shorten path width = path := fun hle => by
    rw [shorten, if_pos hle]
  have hcut : Text.takeSigned (width - 3) path.toList = path.toList.take (width - 3).toNat := by
    rw [Text.takeSigned, if_pos (by omega)]
  refine ⟨?_, hfits, ?_⟩
  · by_cases hle : path.length ≤ width
    · rw [hfits hle]
      exact hle
    · obtain ⟨head, segments, tail, -, hlongest, heq⟩ := shorten_of_lt (Int.not_le.mp hle)
      rw [heq]
      split
      · next hkept => exact hlongest.fits hkept.1
      · have hlength : ellipsis.length = 3 := by decide
        rw [hcut, String.length_append, hlength, String.length_ofList, List.length_take]
        omega
  · intro hlt
    obtain ⟨head, segments, tail, hdivided, hlongest, heq⟩ := shorten_of_lt hlt
    rw [hcut] at heq
    refine ⟨head, segments, tail, hdivided, hlongest, ?_, ?_⟩
    · intro hkept
      rw [heq, if_pos hkept]
    · intro hcut
      rw [heq, if_neg (by grind)]
      rfl

def membersPath : String := "/api/v1/orgs/{org}/members"

theorem shorten_outcome_membersPath :
    (shorten membersPath 20).length ≤ (20 : Int) ∧
      ∃ head segments tail, IsDivided membersPath (head :: segments) ∧
        IsLongestFitting head 20 segments tail ∧
        (tail ≠ [] ∧ tail ≠ segments → shorten membersPath 20 = abridged head tail) ∧
        (tail = [] ∨ tail = segments → shorten membersPath 20 =
          String.ofList (membersPath.toList.take ((20 : Int) - 3).toNat) ++ "...") := by
  have h := shorten_outcome membersPath 20 (by decide)
  exact ⟨h.1, h.2.2 (by decide)⟩

example : shorten "/api/v1/orgs/members" 16 = "/api/.../members" ∧
    shorten "/api/v1/orgs/members" 15 = "/api/v1/orgs..." ∧
    shorten "///api/v1///" 11 = "///api/v..." := by decide

end EndpointAudit.Route
