import EndpointAudit.Text.Blank
import Mathlib.Data.List.DropRight

/-!
# Dropping the ends of a list

What is dropped at the ends of a list satisfies the predicate, and what comes to stand there does
not.
-/

namespace EndpointAudit.Text

variable {α : Type} {p : α → Bool}

theorem dropEnd_append_cons {c : α} (hc : p c = false) (xs ys : List α) :
    dropEnd p (xs ++ c :: ys) = xs ++ c :: dropEnd p ys := by
  simp [dropEnd, List.dropWhile_append, hc]

theorem getLast?_dropEnd {xs : List α} {x : α} (h : (dropEnd p xs).getLast? = some x) :
    p x = false := by
  have hne : dropEnd p xs ≠ [] := by
    intro hnil
    simp [hnil] at h
  rw [List.getLast?_eq_some_getLast hne, Option.some.injEq] at h
  rw [← h]
  exact eq_false_of_ne_true (List.rdropWhile_last_not p xs hne)

theorem dropEnd_eq_self_iff {xs : List α} :
    dropEnd p xs = xs ↔ ∀ x, xs.getLast? = some x → p x = false := by
  constructor
  · intro h x hx
    rw [← h] at hx
    exact getLast?_dropEnd hx
  · intro h
    apply List.rdropWhile_eq_self_iff.mpr
    intro hne
    simp [h _ (List.getLast?_eq_some_getLast hne)]

theorem getLast?_trim {xs : List α} {x : α} (h : (trim p xs).getLast? = some x) : p x = false :=
  getLast?_dropEnd h

theorem head?_trim {xs : List α} {x : α} (h : (trim p xs).head? = some x) : p x = false := by
  obtain ⟨more, hmore⟩ : trim p xs <+: xs.dropWhile p := List.rdropWhile_prefix _ _
  have hhead : (xs.dropWhile p).head? = some x := by
    rw [← hmore, List.head?_append, h]
    rfl
  simpa [hhead] using List.head?_dropWhile_not p xs

theorem exists_eq_append_trim (p : α → Bool) (xs : List α) :
    ∃ before behind, xs = before ++ trim p xs ++ behind ∧
      (∀ x ∈ before, p x = true) ∧ ∀ x ∈ behind, p x = true := by
  refine ⟨xs.takeWhile p, (xs.dropWhile p).rtakeWhile p, ?_, ?_, ?_⟩
  · have hend : trim p xs ++ (xs.dropWhile p).rtakeWhile p = xs.dropWhile p :=
      List.rdropWhile_append_rtakeWhile
    rw [List.append_assoc, hend, List.takeWhile_append_dropWhile]
  · intro x hx
    exact List.mem_takeWhile_imp hx
  · intro x hx
    exact List.mem_rtakeWhile_imp hx

end EndpointAudit.Text
