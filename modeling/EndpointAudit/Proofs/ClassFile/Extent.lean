import EndpointAudit.Proofs.ClassFile.RoundTrip
import EndpointAudit.Proofs.Data.Except

/-!
# How far a class file extends

A reader that finds a value finds it in an initial part of its input: what follows that part never
matters, and no input that ends within it is accepted. Readers keep this property however they are
put together, so it holds of a whole class file.
-/

namespace EndpointAudit

namespace Reader

/-- `read` finds `value` in exactly these bytes: it takes them from the front of any input, and
refuses an input that ends before they do. -/
structure Consumes {α : Type} (read : Reader α) (bytes : Bytes) (value : α) : Prop where
  reads : Reads read bytes value
  refuses : ∀ cut b more, bytes = cut ++ b :: more → read cut = .error .malformed

/-- Whatever the reader finds, it finds in an initial part of its input. -/
def IsLocal {α : Type} (read : Reader α) : Prop :=
  ∀ input value rest, read input = .ok (value, rest) →
    ∃ used, input = used ++ rest ∧ Consumes read used value

variable {α β : Type}

theorem Reads.consumes_nil {read : Reader α} {value : α} (h : Reads read [] value) :
    Consumes read [] value := by
  refine ⟨h, ?_⟩
  intro cut b more hcut
  simp at hcut

theorem Consumes.bind {first : Reader α} {next : α → Reader β} {b₁ b₂ : Bytes} {x : α} {y : β}
    (h₁ : Consumes first b₁ x) (h₂ : Consumes (next x) b₂ y) :
    Consumes (first >>= next) (b₁ ++ b₂) y := by
  refine ⟨h₁.reads.bind h₂.reads, ?_⟩
  intro cut b more hcut
  change (first cut).bind (fun p => next p.1 p.2) = _
  -- The input ends within what the first reader takes, or behind it.
  rcases List.append_eq_append_iff.mp hcut with ⟨taken, rfl, hb₂⟩ | ⟨missing, hb₁, hmore⟩
  · rw [h₁.reads taken]
    exact h₂.refuses taken b more hb₂
  · cases missing with
    | nil =>
      rw [List.append_nil] at hb₁
      rw [List.nil_append] at hmore
      subst hb₁
      have hread := h₁.reads []
      rw [List.append_nil] at hread
      rw [hread]
      exact h₂.refuses [] b more hmore.symm
    | cons c missing =>
      rw [h₁.refuses cut c missing hb₁]
      rfl

theorem IsLocal.bind {first : Reader α} {next : α → Reader β} (h : IsLocal first)
    (hnext : ∀ a, IsLocal (next a)) : IsLocal (first >>= next) := by
  intro input value rest heq
  obtain ⟨⟨a, between⟩, hfirst, hrest⟩ := exists_of_bind_eq_ok
    (show (first input).bind (fun p => next p.1 p.2) = .ok (value, rest) from heq)
  obtain ⟨b₁, rfl, h₁⟩ := h input a between hfirst
  obtain ⟨b₂, rfl, h₂⟩ := hnext a between value rest hrest
  exact ⟨b₁ ++ b₂, by simp, h₁.bind h₂⟩

theorem isLocal_pure (value : α) : IsLocal (pure value : Reader α) := by
  intro input value' rest heq
  cases heq
  exact ⟨[], rfl, (reads_pure value).consumes_nil⟩

theorem isLocal_throw (e : ClassError) : IsLocal (throw e : Reader α) := by
  intro input value rest heq
  cases heq

theorem isLocal_check (found : Except ClassError α) : IsLocal (check found) := by
  intro input value rest heq
  cases found with
  | error e => cases heq
  | ok value' =>
    cases heq
    exact ⟨[], rfl, (reads_check rfl).consumes_nil⟩

theorem IsLocal.bind_pure {read : Reader α} (h : IsLocal read) (f : α → β) :
    IsLocal (read >>= fun a => pure (f a)) :=
  h.bind fun a => isLocal_pure (f a)

theorem isLocal_take (n : Nat) : IsLocal (take n) := by
  intro input value rest heq
  simp only [take] at heq
  split at heq
  · next hlen =>
    cases heq
    refine ⟨input.take n, (List.take_append_drop n input).symm, reads_take hlen, ?_⟩
    intro cut b more hcut
    have hshort : (cut.take n).length ≠ n := by
      have hlength := congrArg List.length hcut
      simp only [hlen, List.length_append, List.length_cons] at hlength
      rw [List.length_take]
      omega
    exact if_neg hshort
  · cases heq

theorem isLocal_number (n : Nat) : IsLocal (number n) := (isLocal_take n).bind_pure Bytes.toNatBE

theorem isLocal_u1 : IsLocal u1 := (isLocal_number 1).bind_pure UInt8.ofNat

theorem isLocal_u2 : IsLocal u2 := (isLocal_number 2).bind_pure UInt16.ofNat

theorem isLocal_u4 : IsLocal u4 := (isLocal_number 4).bind_pure UInt32.ofNat

theorem isLocal_u8 : IsLocal u8 := (isLocal_number 8).bind_pure UInt64.ofNat

theorem IsLocal.times {read : Reader α} (h : IsLocal read) (n : Nat) : IsLocal (times read n) := by
  induction n with
  | zero => exact isLocal_pure []
  | succ n ih => exact h.bind fun first => ih.bind_pure (first :: ·)

theorem IsLocal.counted {read : Reader α} (h : IsLocal read) : IsLocal (counted read) :=
  isLocal_u2.bind fun n => h.times n.toNat

end Reader

namespace ClassFile

open Reader

private theorem isLocal_readText : IsLocal readText := by
  refine isLocal_u2.bind fun length => (isLocal_take length.toNat).bind fun bytes => ?_
  split
  · exact isLocal_pure _
  · exact isLocal_throw _

private theorem isLocal_pair {α : Type} (f : UInt16 → UInt16 → α) :
    IsLocal (do return f (← u2) (← u2)) :=
  isLocal_u2.bind fun first => isLocal_u2.bind_pure (f first)

private theorem isLocal_readConstant (slot : Nat) : IsLocal (readConstant slot) := by
  refine isLocal_u1.bind fun tag => ?_
  split
  · exact isLocal_readText.bind_pure Constant.utf8
  · exact isLocal_u4.bind_pure fun n => Constant.integer n.toInt32
  · exact isLocal_u4.bind_pure Constant.float
  · exact isLocal_u8.bind_pure fun n => Constant.long n.toInt64
  · exact isLocal_u8.bind_pure Constant.double
  · exact isLocal_u2.bind_pure Constant.classRef
  · exact isLocal_u2.bind_pure Constant.string
  · exact isLocal_pair Constant.fieldRef
  · exact isLocal_pair Constant.methodRef
  · exact isLocal_pair Constant.interfaceMethodRef
  · exact isLocal_pair Constant.nameAndType
  · exact isLocal_u1.bind fun kind => isLocal_u2.bind_pure (Constant.methodHandle kind)
  · exact isLocal_u2.bind_pure Constant.methodType
  · exact isLocal_pair Constant.dynamic
  · exact isLocal_pair Constant.invokeDynamic
  · exact isLocal_u2.bind_pure Constant.moduleName
  · exact isLocal_u2.bind_pure Constant.packageName
  · exact isLocal_throw _

private theorem isLocal_readSlots (left slot : Nat) : IsLocal (readSlots left slot) := by
  fun_induction readSlots left slot with
  | case1 slot => exact isLocal_pure []
  | case2 left slot ihwide ih =>
    refine (isLocal_readConstant slot).bind fun constant => ?_
    by_cases hwide : constant.isWide = true
    · rw [if_pos hwide]
      cases left with
      | zero => exact isLocal_pure _
      | succ left => exact ihwide.bind_pure (some constant :: none :: ·)
    · rw [if_neg hwide]
      exact ih.bind_pure (some constant :: ·)

private theorem isLocal_readPool : IsLocal readPool := by
  refine isLocal_u2.bind fun count => ?_
  split
  · exact isLocal_pure _
  · next left _ =>
    exact (isLocal_readSlots left 1).bind_pure fun slots => Pool.mk (none :: slots).toArray

theorem isLocal_resolved {α : Type} (typeName : String) (found : Except Pool.Fault α) :
    IsLocal (resolved typeName found) :=
  isLocal_check _

theorem isLocal_readAttribute (pool : Pool) (typeName : String) :
    IsLocal (readAttribute pool typeName) := by
  refine (isLocal_u2.bind fun slot => isLocal_resolved _ _).bind fun name => ?_
  exact isLocal_u4.bind fun length => (isLocal_take length.toNat).bind_pure (name, ·)

/-- What fields and methods have in common. -/
theorem isLocal_member {α : Type} (pool : Pool) (typeName : String)
    (found : UInt16 → String → String → List (String × Bytes) → Except ClassError α) :
    IsLocal (do
      let access ← u2
      let nameSlot ← u2
      let descriptorSlot ← u2
      let name ← resolved typeName (pool.utf8 nameSlot.toNat)
      let descriptor ← resolved typeName (pool.utf8 descriptorSlot.toNat)
      let attributes ← counted (readAttribute pool typeName)
      check (found access name descriptor attributes)) := by
  refine isLocal_u2.bind fun access => isLocal_u2.bind fun nameSlot => ?_
  refine isLocal_u2.bind fun descriptorSlot => (isLocal_resolved _ _).bind fun name => ?_
  refine (isLocal_resolved _ _).bind fun descriptor => ?_
  exact (isLocal_readAttribute pool typeName).counted.bind fun attributes => isLocal_check _

private theorem isLocal_readField (pool : Pool) (typeName : String) :
    IsLocal (readField pool typeName) :=
  isLocal_member pool typeName fun access name descriptor attributes =>
    attributes.foldlM (addFieldAttribute pool typeName) { access, name, descriptor }

private theorem isLocal_readMethod (pool : Pool) (typeName : String) :
    IsLocal (readMethod pool typeName) :=
  isLocal_member pool typeName fun access name descriptor attributes =>
    attributes.foldlM (addMethodAttribute pool typeName) { access, name, descriptor }

private theorem isLocal_reader : IsLocal reader := by
  refine isLocal_u4.bind fun magic => ?_
  split
  · exact isLocal_throw _
  refine isLocal_u2.bind fun minor => isLocal_u2.bind fun major => ?_
  refine isLocal_readPool.bind fun pool => isLocal_u2.bind fun access => ?_
  refine isLocal_u2.bind fun thisSlot => isLocal_u2.bind fun superSlot => ?_
  refine isLocal_u2.counted.bind fun interfaces => (isLocal_resolved _ _).bind fun name => ?_
  have hmembers : ∀ superName : Option String, IsLocal (do
      let fields ← counted (readField pool (Naming.dotted name))
      let methods ← counted (readMethod pool (Naming.dotted name))
      let attributes ← counted (readAttribute pool (Naming.dotted name))
      check (attributes.foldlM addClassAttribute { name, superName, pool, fields, methods })) := by
    intro superName
    refine (isLocal_readField pool _).counted.bind fun fields => ?_
    refine (isLocal_readMethod pool _).counted.bind fun methods => ?_
    exact (isLocal_readAttribute pool _).counted.bind fun attributes => isLocal_check _
  by_cases hsuper : superSlot = 0
  · simp only [if_pos hsuper]
    exact (isLocal_pure none).bind hmembers
  · simp only [if_neg hsuper]
    exact ((isLocal_resolved _ _).bind_pure some).bind hmembers

/-- **A class file ends where its reader stops.** The class is found in an initial part of the
bytes whatever follows that part, and no shorter part is accepted. -/
theorem parse_extent {bytes : Bytes} {cls : ClassFile} (h : parse bytes = .ok cls) :
    ∃ n ≤ bytes.length, reader bytes = .ok (cls, bytes.drop n) ∧
      (∀ more, parse (bytes.take n ++ more) = .ok cls) ∧
      ∀ k < n, parse (bytes.take k) = .error .malformed := by
  obtain ⟨rest, hread⟩ := exists_of_front h
  obtain ⟨used, rfl, hused⟩ := isLocal_reader bytes cls rest hread
  refine ⟨used.length, by simp, by simpa using hread, ?_, ?_⟩
  · intro more
    rw [List.take_left]
    exact hused.reads.front_append more
  · intro k hk
    have hcut : (used ++ rest).take k = used.take k :=
      List.take_append_of_le_length (Nat.le_of_lt hk)
    have hrefused := hused.refuses (used.take k) used[k] (used.drop (k + 1)) (by simp)
    rw [hcut, parse, front, hrefused]
    rfl

end ClassFile

namespace ClassLayout

theorem parse_extent_limited :
    ClassFile.parse (limited.encode ++ [0xFF]) = .ok limited.value ∧
    ∃ n ≤ (limited.encode ++ [0xFF]).length,
      ClassFile.reader (limited.encode ++ [0xFF]) =
        .ok (limited.value, (limited.encode ++ [0xFF]).drop n) ∧
      (∀ more, ClassFile.parse ((limited.encode ++ [0xFF]).take n ++ more) = .ok limited.value) ∧
      ∀ k < n, ClassFile.parse ((limited.encode ++ [0xFF]).take k) = .error .malformed := by
  have hparse : ClassFile.parse (limited.encode ++ [0xFF]) = .ok limited.value :=
    (reads_reader wellFormed_limited).front_append [0xFF]
  exact ⟨hparse, ClassFile.parse_extent hparse⟩

end ClassLayout

end EndpointAudit
