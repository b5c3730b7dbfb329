import Mathlib.Data.List.Forall2

/-!
# Computations that may fail

What is known of the parts of a computation that has come to an answer, and how what is known of the
parts carries over to the whole.
-/

namespace EndpointAudit

variable {ε ε' α β : Type}

theorem exists_of_bind_eq_ok {x : Except ε α} {f : α → Except ε β} {b : β}
    (h : x >>= f = .ok b) : ∃ a, x = .ok a ∧ f a = .ok b := by
  cases x with
  | error e => cases h
  | ok a => exact ⟨a, rfl, h⟩

theorem cases_of_bind_eq_error {x : Except ε α} {f : α → Except ε β} {e : ε}
    (h : x >>= f = .error e) : x = .error e ∨ ∃ a, x = .ok a ∧ f a = .error e := by
  cases x with
  | error e' =>
    cases h
    exact .inl rfl
  | ok a => exact .inr ⟨a, rfl, h⟩

theorem eq_ok_of_mapError_eq_ok {x : Except ε α} {f : ε → ε'} {a : α}
    (h : x.mapError f = .ok a) : x = .ok a := by
  cases x with
  | error e => cases h
  | ok a' =>
    cases h
    rfl

theorem exists_ok_of_toOption {x : Except ε α} {f : α → β} {b : β}
    (h : x.toOption.map f = some b) : ∃ a, x = .ok a ∧ f a = b := by
  cases x with
  | error e => cases h
  | ok a => exact ⟨a, rfl, Option.some.inj h⟩

theorem eq_ok_of_toOption {x : Except ε α} {a : α} (h : x.toOption = some a) : x = .ok a := by
  obtain ⟨a', hx, rfl⟩ := exists_ok_of_toOption (f := id) (by rwa [Option.map_id])
  exact hx

theorem forall₂_of_mapM_eq_ok {f : α → Except ε β} {xs : List α} {ys : List β}
    (h : xs.mapM f = .ok ys) : List.Forall₂ (fun x y => f x = .ok y) xs ys := by
  induction xs generalizing ys with
  | nil =>
    cases h
    exact .nil
  | cons x xs ih =>
    rw [List.mapM_cons] at h
    obtain ⟨y, hy, h⟩ := exists_of_bind_eq_ok h
    obtain ⟨ys', hys, h⟩ := exists_of_bind_eq_ok h
    cases h
    exact .cons hy (ih hys)

theorem exists_mem_of_mapM_eq_ok {f : α → Except ε β} {xs : List α} {ys : List β}
    (h : xs.mapM f = .ok ys) {y : β} (hy : y ∈ ys) : ∃ x ∈ xs, f x = .ok y := by
  have hall := forall₂_of_mapM_eq_ok h
  clear h
  induction hall with
  | nil => simp at hy
  | @cons x y' xs ys hx _ ih =>
    rcases List.mem_cons.mp hy with rfl | hy
    · exact ⟨x, by simp, hx⟩
    · obtain ⟨x', hmem, hx'⟩ := ih hy
      exact ⟨x', List.mem_cons_of_mem _ hmem, hx'⟩

theorem exists_image_of_mapM_eq_ok {f : α → Except ε β} {xs : List α} {ys : List β}
    (h : xs.mapM f = .ok ys) {x : α} (hx : x ∈ xs) : ∃ y ∈ ys, f x = .ok y := by
  have hall := forall₂_of_mapM_eq_ok h
  clear h
  induction hall with
  | nil => simp at hx
  | @cons x' y xs ys hy _ ih =>
    rcases List.mem_cons.mp hx with rfl | hx
    · exact ⟨y, by simp, hy⟩
    · obtain ⟨y', hmem, hy'⟩ := ih hx
      exact ⟨y', List.mem_cons_of_mem _ hmem, hy'⟩

theorem exists_mem_of_mapM_eq_error {f : α → Except ε β} {xs : List α} {e : ε}
    (h : xs.mapM f = .error e) : ∃ x ∈ xs, f x = .error e := by
  induction xs with
  | nil => cases h
  | cons x xs ih =>
    rw [List.mapM_cons] at h
    rcases cases_of_bind_eq_error h with hx | ⟨y, -, h⟩
    · exact ⟨x, List.mem_cons_self, hx⟩
    · rcases cases_of_bind_eq_error h with hxs | ⟨ys, -, h⟩
      · obtain ⟨x', hmem, hx'⟩ := ih hxs
        exact ⟨x', List.mem_cons_of_mem _ hmem, hx'⟩
      · cases h

/-- A property that every step keeps holds at the end. -/
theorem foldlM_invariant {P : β → Prop} {f : β → α → Except ε β}
    (hstep : ∀ b a b', P b → f b a = .ok b' → P b') {xs : List α} {b b' : β} (hb : P b)
    (h : xs.foldlM f b = .ok b') : P b' := by
  induction xs generalizing b with
  | nil =>
    cases h
    exact hb
  | cons x xs ih =>
    rw [List.foldlM_cons] at h
    obtain ⟨between, hfirst, hrest⟩ := exists_of_bind_eq_ok h
    exact ih (hstep b x between hb hfirst) hrest

/-! ## Both outcomes -/

/-- A value has the first property, an error the second. -/
def Ends (found : Except ε α) (Means : α → Prop) (Blames : ε → Prop) : Prop :=
  match found with
  | .ok value => Means value
  | .error e => Blames e

/-- The values are exactly those with the first property, and errors have the second. -/
structure Settles (found : Except ε α) (Means : α → Prop) (Blames : ε → Prop) : Prop where
  ok_iff : ∀ value, found = .ok value ↔ Means value
  error : ∀ e, found = .error e → Blames e

variable {Blames : ε → Prop}

theorem Ends.imp {found : Except ε α} {Means Means' : α → Prop} (h : Ends found Means Blames)
    (himp : ∀ value, Means value → Means' value) : Ends found Means' Blames := by
  cases found with
  | ok value => exact himp value h
  | error e => exact h

theorem Ends.bind {first : Except ε α} {next : α → Except ε β} {Means₁ : α → Prop}
    {Means : β → Prop} (h₁ : Ends first Means₁ Blames)
    (h₂ : ∀ a, Means₁ a → Ends (next a) Means Blames) : Ends (first >>= next) Means Blames := by
  cases first with
  | ok a => exact h₂ a h₁
  | error e => exact h₁

theorem Ends.mapError {found : Except ε α} {Means : α → Prop} {Blames' : ε' → Prop}
    (h : Ends found Means Blames) {f : ε → ε'} (hf : ∀ e, Blames e → Blames' (f e)) :
    Ends (found.mapError f) Means Blames' := by
  cases found with
  | ok value => exact h
  | error e => exact hf e h

theorem Ends.settles {found : Except ε α} {Means : α → Prop} (h : Ends found Means Blames)
    (hfound : ∀ value, Means value → found = .ok value) : Settles found Means Blames := by
  refine ⟨fun value => ⟨fun heq => ?_, hfound value⟩, fun e heq => ?_⟩
  · rw [heq] at h
    exact h
  · rw [heq] at h
    exact h

/-! ## Computations with a state -/

section State

variable {σ : Type} {x : ExceptT ε (StateM σ) α} {f : α → ExceptT ε (StateM σ) β} {s s' : σ}

theorem run_bind {a : α} (h : x.run s = (.ok a, s')) : (x >>= f).run s = (f a).run s' := by
  change (ExceptT.bindCont f (x.run s).1).run (x.run s).2 = _
  rw [h]
  rfl

theorem run_bind_error {e : ε} (h : x.run s = (.error e, s')) :
    (x >>= f).run s = (.error e, s') := by
  change (ExceptT.bindCont f (x.run s).1).run (x.run s).2 = _
  rw [h]
  rfl

theorem run_tryCatch {g : ε → ExceptT ε (StateM σ) α} {a : α} (h : x.run s = (.ok a, s')) :
    (tryCatch x g).run s = (.ok a, s') := by
  change (match (x.run s).1 with
    | .ok a => pure (.ok a)
    | .error e => (g e).run : StateM σ (Except ε α)) (x.run s).2 = _
  rw [h]
  rfl

theorem run_tryCatch_error {g : ε → ExceptT ε (StateM σ) α} {e : ε}
    (h : x.run s = (.error e, s')) : (tryCatch x g).run s = (g e).run s' := by
  change (match (x.run s).1 with
    | .ok a => pure (.ok a)
    | .error e => (g e).run : StateM σ (Except ε α)) (x.run s).2 = _
  rw [h]

end State

end EndpointAudit
