import EndpointAudit.Endpoint.SessionPolicy

/-!
# The most specific session policy

Policies are offered one after the other, and each replaces what is known only if its rank is
higher. What is left is the first policy of the highest rank, and offering the same policies once
more changes nothing.
-/

namespace EndpointAudit.SessionPolicy

/-- How much is known, with nothing below every policy. -/
def level : Option SessionPolicy → Nat
  | none => 0
  | some policy => policy.rank + 1

/-- What is known after policies have been offered in order. -/
def offerAll (known : Option SessionPolicy) (policies : List SessionPolicy) :
    Option SessionPolicy :=
  policies.foldl (fun known policy => policy.offer known) known

/-- `found` is the first policy of the highest rank in a list, and nothing if the list is empty. -/
def IsFirstMaximal (policies : List SessionPolicy) : Option SessionPolicy → Prop
  | none => policies = []
  | some found => ∃ before after, policies = before ++ found :: after ∧
      (∀ p ∈ before, p.rank < found.rank) ∧ ∀ p ∈ after, p.rank ≤ found.rank

@[simp] theorem level_some (policy : SessionPolicy) : level (some policy) = policy.rank + 1 := rfl

@[simp] theorem offerAll_nil (known : Option SessionPolicy) : offerAll known [] = known := rfl

@[simp] theorem offerAll_cons (known : Option SessionPolicy) (policy : SessionPolicy)
    (policies : List SessionPolicy) :
    offerAll known (policy :: policies) = offerAll (policy.offer known) policies := rfl

theorem offerAll_append (known : Option SessionPolicy) (policies more : List SessionPolicy) :
    offerAll known (policies ++ more) = offerAll (offerAll known policies) more :=
  List.foldl_append

theorem exceeds_iff (policy : SessionPolicy) (known : Option SessionPolicy) :
    policy.exceeds known = true ↔ level known < policy.rank + 1 := by
  cases known <;> simp [exceeds, level]

theorem offer_of_exceeds {policy : SessionPolicy} {known : Option SessionPolicy}
    (h : policy.exceeds known = true) : policy.offer known = some policy := by
  simp [offer, h]

theorem offer_of_not_exceeds {policy : SessionPolicy} {known : Option SessionPolicy}
    (h : policy.exceeds known = false) : policy.offer known = known := by
  simp [offer, h]

theorem offer_eq_or (policy : SessionPolicy) (known : Option SessionPolicy) :
    policy.offer known = some policy ∨ policy.offer known = known := by
  unfold offer
  split <;> simp

theorem offer_eq_self_iff (policy : SessionPolicy) (known : Option SessionPolicy) :
    policy.offer known = known ↔ policy.exceeds known = false := by
  refine ⟨?_, offer_of_not_exceeds⟩
  intro h
  cases he : policy.exceeds known with
  | false => rfl
  | true =>
    -- A policy that replaced itself would exceed itself.
    rw [offer_of_exceeds he] at h
    rw [← h] at he
    simp [exceeds] at he

private theorem level_le_offer (policy : SessionPolicy) (known : Option SessionPolicy) :
    level known ≤ level (policy.offer known) := by
  cases h : policy.exceeds known with
  | false => exact Nat.le_of_eq (congrArg level (offer_of_not_exceeds h).symm)
  | true =>
    rw [offer_of_exceeds h, level_some]
    exact Nat.le_of_lt ((exceeds_iff policy known).mp h)

theorem level_le_offerAll (policies : List SessionPolicy) (known : Option SessionPolicy) :
    level known ≤ level (offerAll known policies) := by
  induction policies generalizing known with
  | nil => exact Nat.le_refl _
  | cons p ps ih => exact Nat.le_trans (level_le_offer p known) (ih (p.offer known))

/-- A policy that has been replaced never comes back. -/
theorem not_exceeds_of_offerAll_eq {policy : SessionPolicy} {known : Option SessionPolicy}
    {policies : List SessionPolicy} (h : offerAll (policy.offer known) policies = known) :
    policy.exceeds known = false := by
  cases he : policy.exceeds known with
  | false => rfl
  | true =>
    have hlt := (exceeds_iff policy known).mp he
    have hle := level_le_offerAll policies (policy.offer known)
    rw [h, offer_of_exceeds he, level_some] at hle
    omega

theorem IsFirstMaximal.eq_none_iff {policies : List SessionPolicy} {known : Option SessionPolicy}
    (h : IsFirstMaximal policies known) : known = none ↔ policies = [] := by
  cases known with
  | none => exact ⟨fun _ => h, fun _ => rfl⟩
  | some found =>
    obtain ⟨before, after, rfl, -, -⟩ := h
    simp

theorem IsFirstMaximal.offer {policies : List SessionPolicy} {known : Option SessionPolicy}
    (h : IsFirstMaximal policies known) (policy : SessionPolicy) :
    IsFirstMaximal (policies ++ [policy]) (policy.offer known) := by
  cases known with
  | none =>
    have hnil : policies = [] := h
    subst hnil
    exact ⟨[], [], rfl, by simp, by simp⟩
  | some found =>
    obtain ⟨before, after, rfl, hbefore, hafter⟩ := h
    cases he : policy.exceeds (some found) with
    | false =>
      have hle : policy.rank ≤ found.rank := by simpa [exceeds] using he
      rw [offer_of_not_exceeds he]
      refine ⟨before, after ++ [policy], by simp, hbefore, ?_⟩
      intro p hp
      rcases List.mem_append.mp hp with hp | hp
      · exact hafter p hp
      · rw [List.mem_singleton.mp hp]
        exact hle
    | true =>
      have hlt : found.rank < policy.rank := by simpa [exceeds] using he
      rw [offer_of_exceeds he]
      refine ⟨before ++ found :: after, [], rfl, ?_, by simp⟩
      intro p hp
      simp only [List.mem_append, List.mem_cons] at hp
      rcases hp with hp | rfl | hp
      · have := hbefore p hp
        omega
      · exact hlt
      · have := hafter p hp
        omega

theorem IsFirstMaximal.offerAll {policies : List SessionPolicy} {known : Option SessionPolicy}
    (h : IsFirstMaximal policies known) (more : List SessionPolicy) :
    IsFirstMaximal (policies ++ more) (offerAll known more) := by
  induction more generalizing policies known with
  | nil => simpa using h
  | cons p ps ih => simpa using ih (h.offer p)

theorem isFirstMaximal_offerAll (known : Option SessionPolicy) (policies : List SessionPolicy) :
    IsFirstMaximal (known.toList ++ policies) (offerAll known policies) := by
  apply IsFirstMaximal.offerAll
  cases known with
  | none => rfl
  | some found => exact ⟨[], [], rfl, by simp, by simp⟩

theorem IsFirstMaximal.not_exceeds {policies : List SessionPolicy} {known : Option SessionPolicy}
    (h : IsFirstMaximal policies known) {policy : SessionPolicy} (hp : policy ∈ policies) :
    policy.exceeds known = false := by
  cases known with
  | none =>
    have hnil : policies = [] := h
    simp [hnil] at hp
  | some found =>
    obtain ⟨before, after, rfl, hbefore, hafter⟩ := h
    have hle : policy.rank ≤ found.rank := by
      simp only [List.mem_append, List.mem_cons] at hp
      rcases hp with hp | rfl | hp
      · have := hbefore policy hp
        omega
      · omega
      · exact hafter policy hp
    simpa [exceeds] using hle

theorem offerAll_of_not_exceeds {known : Option SessionPolicy} {policies : List SessionPolicy}
    (h : ∀ p ∈ policies, p.exceeds known = false) : offerAll known policies = known := by
  induction policies with
  | nil => rfl
  | cons p ps ih =>
    rw [offerAll_cons, offer_of_not_exceeds (h p (by simp))]
    exact ih fun q hq => h q (by simp [hq])

/-- Offering the same policies a second time changes nothing. -/
theorem offerAll_offerAll (known : Option SessionPolicy) (policies : List SessionPolicy) :
    offerAll (offerAll known policies) policies = offerAll known policies := by
  apply offerAll_of_not_exceeds
  intro p hp
  exact (isFirstMaximal_offerAll known policies).not_exceeds (by simp [hp])

/-! ## The policies that have a name -/

theorem rank_le_two (policy : SessionPolicy) : policy.rank ≤ 2 := by
  cases policy <;> decide

theorem rank_eq_two_iff (policy : SessionPolicy) :
    policy.rank = 2 ↔ policy ≠ .standard ∧ policy ≠ .custom := by
  cases policy <;> decide

theorem offerAll_of_rank_eq_two {policy : SessionPolicy} (h : policy.rank = 2)
    (policies : List SessionPolicy) : offerAll (some policy) policies = some policy := by
  apply offerAll_of_not_exceeds
  intro p _
  have hle : p.rank ≤ policy.rank := h ▸ rank_le_two p
  simpa [exceeds] using hle

/-- Where every policy of a list is outranked in another, the other leaves at least as much. -/
theorem level_offerAll_le {policies others : List SessionPolicy}
    (h : ∀ p ∈ policies, ∃ q ∈ others, p.rank ≤ q.rank) :
    level (offerAll none policies) ≤ level (offerAll none others) := by
  have hfirst := isFirstMaximal_offerAll none policies
  cases hfound : offerAll none policies with
  | none => exact Nat.zero_le _
  | some found =>
    rw [hfound] at hfirst
    obtain ⟨before, after, heq, -, -⟩ := hfirst
    have hmem : found ∈ policies := by
      rw [Option.toList_none, List.nil_append] at heq
      simp [heq]
    obtain ⟨q, hq, hle⟩ := h found hmem
    have hnot := (isFirstMaximal_offerAll none others).not_exceeds (by simpa using hq)
    have hlevel : ¬ level (offerAll none others) < q.rank + 1 := by
      rw [← exceeds_iff, hnot]
      simp
    rw [level_some]
    omega

end EndpointAudit.SessionPolicy
