/-!
# Sets of tags

A finite set of texts, kept as a list in strictly ascending order. The order makes the
representation unique: two sets with the same members are equal.
-/

namespace EndpointAudit

/-- A finite set of texts in ascending order of their code points. -/
structure TagSet where
  toList : List String
  ascending : toList.Pairwise (· < ·) := by simp
deriving DecidableEq, Repr

namespace TagSet

instance : Membership String TagSet := ⟨fun s x => x ∈ s.toList⟩

instance (x : String) (s : TagSet) : Decidable (x ∈ s) :=
  inferInstanceAs (Decidable (x ∈ s.toList))

theorem mem_def {x : String} {s : TagSet} : x ∈ s ↔ x ∈ s.toList := Iff.rfl

def empty : TagSet := { toList := [] }

instance : EmptyCollection TagSet := ⟨empty⟩

instance : Inhabited TagSet := ⟨empty⟩

@[simp] theorem not_mem_empty (x : String) : x ∉ (∅ : TagSet) := by
  simp [mem_def, EmptyCollection.emptyCollection, empty]

/-- Puts a text at its place in an ascending list that may already hold it. -/
def place (x : String) : List String → List String
  | [] => [x]
  | y :: ys => if x < y then x :: y :: ys else if x = y then y :: ys else y :: place x ys

theorem mem_place {x y : String} {ys : List String} : y ∈ place x ys ↔ y = x ∨ y ∈ ys := by
  induction ys with
  | nil => simp [place]
  | cons z zs ih => grind [place]

theorem pairwise_place {x : String} {ys : List String} (h : ys.Pairwise (· < ·)) :
    (place x ys).Pairwise (· < ·) := by
  induction ys with
  | nil => simp [place]
  | cons z zs ih =>
    rw [List.pairwise_cons] at h
    unfold place
    split
    · next hlt =>
      refine List.pairwise_cons.2 ⟨?_, List.pairwise_cons.2 h⟩
      intro y hy
      rcases List.mem_cons.1 hy with rfl | hy
      · exact hlt
      · exact String.lt_trans hlt (h.1 y hy)
    · next hlt =>
      split
      · exact List.pairwise_cons.2 h
      · next hne =>
        refine List.pairwise_cons.2 ⟨?_, ih h.2⟩
        intro y hy
        rcases mem_place.1 hy with rfl | hy
        · grind
        · exact h.1 y hy

def insert (x : String) (s : TagSet) : TagSet :=
  { toList := place x s.toList, ascending := pairwise_place s.ascending }

def ofList (xs : List String) : TagSet :=
  xs.foldl (fun s x => s.insert x) ∅

def union (s t : TagSet) : TagSet :=
  t.toList.foldl (fun s x => s.insert x) s

instance : Union TagSet := ⟨union⟩

def filter (p : String → Bool) (s : TagSet) : TagSet :=
  { toList := s.toList.filter p, ascending := s.ascending.filter p }

def diff (s t : TagSet) : TagSet :=
  s.filter fun x => decide (x ∉ t)

def isEmpty (s : TagSet) : Bool := s.toList.isEmpty

@[simp] theorem mem_insert {x y : String} {s : TagSet} : y ∈ s.insert x ↔ y = x ∨ y ∈ s :=
  mem_place

theorem mem_foldl_insert {y : String} {s : TagSet} {xs : List String} :
    y ∈ xs.foldl (fun s x => s.insert x) s ↔ y ∈ s ∨ y ∈ xs := by
  induction xs generalizing s with
  | nil => simp
  | cons x xs ih => simp [ih]; grind

@[simp] theorem mem_ofList {x : String} {xs : List String} : x ∈ ofList xs ↔ x ∈ xs := by
  simp [ofList, mem_foldl_insert]

@[simp] theorem mem_union {x : String} {s t : TagSet} : x ∈ s ∪ t ↔ x ∈ s ∨ x ∈ t :=
  mem_foldl_insert

@[simp] theorem mem_filter {x : String} {p : String → Bool} {s : TagSet} :
    x ∈ s.filter p ↔ x ∈ s ∧ p x := by
  simp [mem_def, filter]

@[simp] theorem mem_diff {x : String} {s t : TagSet} : x ∈ s.diff t ↔ x ∈ s ∧ x ∉ t := by
  simp [diff]

/-- Two ascending lists with the same members are the same list. -/
theorem eq_of_mem_iff {xs ys : List String} (hx : xs.Pairwise (· < ·))
    (hy : ys.Pairwise (· < ·)) (h : ∀ z, z ∈ xs ↔ z ∈ ys) : xs = ys := by
  induction xs generalizing ys with
  | nil =>
    cases ys with
    | nil => rfl
    | cons y ys => exact absurd ((h y).2 (by simp)) (by simp)
  | cons x xs ih =>
    cases ys with
    | nil => exact absurd ((h x).1 (by simp)) (by simp)
    | cons y ys =>
      rw [List.pairwise_cons] at hx hy
      have hxy : x = y := by
        have h1 := (h x).1 (by simp)
        have h2 := (h y).2 (by simp)
        simp only [List.mem_cons] at h1 h2
        grind
      subst hxy
      have : xs = ys := by
        refine ih hx.2 hy.2 fun z => ?_
        have hz := h z
        simp only [List.mem_cons] at hz
        grind
      rw [this]

@[ext] theorem ext {s t : TagSet} (h : ∀ x, x ∈ s ↔ x ∈ t) : s = t := by
  cases s with
  | mk xs hx =>
    cases t with
    | mk ys hy =>
      have : xs = ys := eq_of_mem_iff hx hy h
      subst this
      rfl

end TagSet

end EndpointAudit
