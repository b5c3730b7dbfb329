import EndpointAudit.Naming
import Mathlib.Data.List.TakeWhile

/-!
# Words in type names

A word that occurs in the simple name of a type also occurs in the last segment of its dotted name,
and squashing a text squashes every block of it, so different tests for one word agree.
-/

namespace EndpointAudit

namespace Text

private theorem occursIn_iff (part cs : List Char) : occursIn part cs = true ↔ part <:+: cs := by
  induction cs with
  | nil => simp [occursIn]
  | cons c cs ih =>
    rw [occursIn, Bool.or_eq_true, ih, List.isPrefixOf_iff_prefix, List.infix_cons_iff]

theorem contains_iff (text part : String) :
    contains text part = true ↔ part.toList <:+: text.toList :=
  occursIn_iff _ _

private theorem afterLast_suffix (sep : Char) (text : String) :
    (afterLast sep text).toList <:+ text.toList := by
  rw [afterLast, String.toList_ofList]
  have h : text.toList.reverse.takeWhile (· ≠ sep) <+: text.toList.reverse :=
    List.takeWhile_prefix _
  simpa using List.reverse_suffix.mpr h

theorem not_mem_afterLast (sep : Char) (text : String) : sep ∉ (afterLast sep text).toList := by
  rw [afterLast, String.toList_ofList, List.mem_reverse]
  intro hmem
  simpa using List.mem_takeWhile_imp hmem

theorem afterLast_of_not_mem {sep : Char} {text : String} (h : sep ∉ text.toList) :
    afterLast sep text = text := by
  have hall : text.toList.reverse.takeWhile (· ≠ sep) = text.toList.reverse := by
    rw [List.takeWhile_eq_self_iff]
    intro c hc
    have hne : c ≠ sep := fun heq => h (heq ▸ List.mem_reverse.mp hc)
    simpa using hne
  rw [afterLast, hall, List.reverse_reverse, String.ofList_toList]

theorem afterLast_append {sep : Char} {mark : String} (hmark : mark.toList = [sep])
    (before text : String) : afterLast sep (before ++ mark ++ text) = afterLast sep text := by
  have hstop : (text.toList.reverse ++ sep :: before.toList.reverse).takeWhile (· ≠ sep) =
      text.toList.reverse.takeWhile (· ≠ sep) := by
    induction text.toList.reverse with
    | nil => simp
    | cons c cs ih => by_cases hc : c = sep <;> simp_all
  rw [afterLast, afterLast, String.toList_append, String.toList_append, hmark]
  simp only [List.reverse_append, List.reverse_singleton, List.singleton_append, hstop]

end Text

namespace Naming

/-- What is left of a character of a squashed text. -/
def squashChar (c : Char) : List Char := (Text.lowerChar c).filter isWordChar

theorem toList_squash (text : String) :
    (squash text).toList = text.toList.flatMap squashChar := by
  rw [squash, Text.lower, String.toList_ofList, String.toList_ofList, List.filter_flatMap]
  rfl

theorem contains_squash {text part : String} (h : Text.contains text part = true) :
    Text.contains (squash text) (squash part) = true := by
  rw [Text.contains_iff] at h ⊢
  obtain ⟨before, after, heq⟩ := h
  refine ⟨before.flatMap squashChar, after.flatMap squashChar, ?_⟩
  rw [toList_squash, toList_squash, ← heq, List.flatMap_append, List.flatMap_append]

private theorem takeWhile_dotted (cs : List Char) :
    (cs.map fun c => if c = '/' then '.' else c).takeWhile (· ≠ '.') <+:
      cs.takeWhile (· ≠ '.') := by
  induction cs with
  | nil => simp
  | cons c cs ih =>
    by_cases hslash : c = '/'
    · simp [hslash]
    · by_cases hdot : c = '.'
      · simp [hdot]
      · simpa [hslash, hdot] using ih

/-- The simple name ends the last segment of the dotted name, also where slashes divide it. -/
theorem simpleName_suffix (typeName : String) :
    (simpleName typeName).toList <:+ (Text.afterLast '.' typeName).toList := by
  have hsegment : (Text.afterLast '.' (dotted typeName)).toList <:+
      (Text.afterLast '.' typeName).toList := by
    rw [Text.afterLast, Text.afterLast, dotted, Text.replaceChar]
    simp only [String.toList_ofList, ← List.map_reverse]
    exact List.reverse_suffix.mpr (takeWhile_dotted typeName.toList.reverse)
  exact (Text.afterLast_suffix '$' _).trans hsegment

end Naming

end EndpointAudit
