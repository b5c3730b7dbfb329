import EndpointAudit.ClassFile.Reader
import Mathlib.Algebra.Group.Nat.Defs
import Mathlib.Data.List.Induction

/-!
# Readers and the bytes they accept

A reader accepts a byte string for a value if it takes exactly these bytes from the front of any
input and leaves the rest alone. Acceptance composes along the reader's own steps, so the layout
of a file can be followed production by production.
-/

namespace EndpointAudit

namespace Bytes

/-- The lowest `width` bytes of a number, the most significant byte first. -/
def ofNatBE : (width n : Nat) → Bytes
  | 0, _ => []
  | width + 1, n => ofNatBE width (n / 256) ++ [UInt8.ofNat n]

/-- The two bytes of a number. -/
def ofUInt16 (n : UInt16) : Bytes := ofNatBE 2 n.toNat

/-- The four bytes of a number. -/
def ofUInt32 (n : UInt32) : Bytes := ofNatBE 4 n.toNat

/-- The eight bytes of a number. -/
def ofUInt64 (n : UInt64) : Bytes := ofNatBE 8 n.toNat

/-- Parts one after the other, behind their number in two bytes. -/
def counted {α : Type} (encode : α → Bytes) (xs : List α) : Bytes :=
  ofNatBE 2 xs.length ++ xs.flatMap encode

@[simp] theorem length_ofNatBE (width n : Nat) : (ofNatBE width n).length = width := by
  induction width generalizing n with
  | zero => rfl
  | succ width ih => simp [ofNatBE, ih]

@[simp] theorem length_ofUInt16 (n : UInt16) : (ofUInt16 n).length = 2 := length_ofNatBE 2 _

theorem length_le_counted {α : Type} (encode : α → Bytes) {xs : List α} {x : α} (h : x ∈ xs) :
    (encode x).length + 2 ≤ (counted encode xs).length := by
  have hsub : (encode x).length ≤ (xs.flatMap encode).length := by
    rw [List.flatMap_def]
    exact (List.sublist_flatten_of_mem (List.mem_map_of_mem h)).length_le
  rw [counted, List.length_append, length_ofNatBE]
  omega

theorem toNatBE_append_singleton (bytes : Bytes) (b : UInt8) :
    toNatBE (bytes ++ [b]) = 256 * toNatBE bytes + b.toNat := by
  simp [toNatBE]

theorem toNatBE_ofNatBE (width n : Nat) : toNatBE (ofNatBE width n) = n % 256 ^ width := by
  induction width generalizing n with
  | zero => simp [ofNatBE, toNatBE, Nat.mod_one]
  | succ width ih =>
    rw [ofNatBE, toNatBE_append_singleton, ih, Nat.pow_succ, Nat.mul_comm (256 ^ width),
      Nat.mod_mul]
    simp
    omega

theorem toNatBE_lt (bytes : Bytes) : toNatBE bytes < 256 ^ bytes.length := by
  induction bytes using List.reverseRecOn with
  | nil => decide
  | append_singleton bytes b ih =>
    have hb := b.toNat_lt
    rw [toNatBE_append_singleton, List.length_append, List.length_singleton, Nat.pow_succ]
    omega

theorem ofNatBE_toNatBE (bytes : Bytes) : ofNatBE bytes.length (toNatBE bytes) = bytes := by
  induction bytes using List.reverseRecOn with
  | nil => rfl
  | append_singleton bytes b ih =>
    have hb := b.toNat_lt
    have hhigh : (256 * toNatBE bytes + b.toNat) / 256 = toNatBE bytes := by omega
    have hlow : UInt8.ofNat (256 * toNatBE bytes + b.toNat) = b := by
      rw [← UInt8.toNat_inj, UInt8.toNat_ofNat']
      omega
    rw [List.length_append, List.length_singleton, ofNatBE, toNatBE_append_singleton, hhigh, ih,
      hlow]

end Bytes

namespace Reader

/-- `read` takes exactly `bytes` from the front of any input and finds `value`. -/
def Reads {α : Type} (read : Reader α) (bytes : Bytes) (value : α) : Prop :=
  ∀ rest, read (bytes ++ rest) = .ok (value, rest)

theorem reads_pure {α : Type} (value : α) : Reads (pure value) [] value :=
  fun _ => rfl

theorem Reads.bind {α β : Type} {first : Reader α} {next : α → Reader β} {b₁ b₂ : Bytes} {x : α}
    {y : β} (h₁ : Reads first b₁ x) (h₂ : Reads (next x) b₂ y) :
    Reads (first >>= next) (b₁ ++ b₂) y := by
  intro rest
  change (first (b₁ ++ b₂ ++ rest)).bind (fun p => next p.1 p.2) = _
  rw [List.append_assoc, h₁ (b₂ ++ rest)]
  exact h₂ rest

theorem Reads.bind_nil {α β : Type} {first : Reader α} {next : α → Reader β} {bytes : Bytes}
    {x : α} {y : β} (h₁ : Reads first bytes x) (h₂ : Reads (next x) [] y) :
    Reads (first >>= next) bytes y := by
  have hbind := h₁.bind h₂
  rwa [List.append_nil] at hbind

theorem Reads.nil_bind {α β : Type} {first : Reader α} {next : α → Reader β} {bytes : Bytes}
    {x : α} {y : β} (h₁ : Reads first [] x) (h₂ : Reads (next x) bytes y) :
    Reads (first >>= next) bytes y :=
  h₁.bind h₂

theorem Reads.bind_pure {α β : Type} {first : Reader α} {bytes : Bytes} {x : α} (f : α → β)
    (h : Reads first bytes x) : Reads (first >>= fun a => pure (f a)) bytes (f x) :=
  h.bind_nil (reads_pure (f x))

theorem Reads.of_eq {α : Type} {read : Reader α} {bytes bytes' : Bytes} {value : α}
    (h : Reads read bytes value) (hb : bytes = bytes') : Reads read bytes' value :=
  hb ▸ h

theorem reads_check {α : Type} {found : Except ClassError α} {value : α} (h : found = .ok value) :
    Reads (check found) [] value := by
  subst h
  exact fun _ => rfl

theorem Reads.front_append {α : Type} {read : Reader α} {bytes : Bytes} {value : α}
    (h : Reads read bytes value) (rest : Bytes) : front read (bytes ++ rest) = .ok value := by
  rw [Reader.front, h rest]
  rfl

theorem Reads.front {α : Type} {read : Reader α} {bytes : Bytes} {value : α}
    (h : Reads read bytes value) : front read bytes = .ok value := by
  have hfront := h.front_append []
  rwa [List.append_nil] at hfront

theorem exists_of_front {α : Type} {read : Reader α} {bytes : Bytes} {value : α}
    (h : front read bytes = .ok value) : ∃ rest, read bytes = .ok (value, rest) := by
  rw [front] at h
  cases hread : read bytes with
  | error e =>
    rw [hread] at h
    cases h
  | ok found =>
    rw [hread] at h
    cases h
    exact ⟨found.2, rfl⟩

/-! ## Bytes and numbers -/

theorem reads_take {bytes : Bytes} {n : Nat} (h : bytes.length = n) :
    Reads (take n) bytes bytes := by
  intro rest
  simp [take, ← h]

theorem reads_number {width n : Nat} (h : n < 256 ^ width) :
    Reads (number width) (Bytes.ofNatBE width n) n := by
  have htake := (reads_take (Bytes.length_ofNatBE width n)).bind_pure Bytes.toNatBE
  rwa [Bytes.toNatBE_ofNatBE, Nat.mod_eq_of_lt h] at htake

theorem reads_u1 (n : UInt8) : Reads u1 [n] n := by
  have h := (reads_number (show n.toNat < 256 ^ 1 from n.toNat_lt)).bind_pure UInt8.ofNat
  rw [UInt8.ofNat_toNat] at h
  exact h.of_eq (by simp [Bytes.ofNatBE])

theorem reads_u2 (n : UInt16) : Reads u2 (Bytes.ofUInt16 n) n := by
  have h := (reads_number (show n.toNat < 256 ^ 2 from n.toNat_lt)).bind_pure UInt16.ofNat
  rwa [UInt16.ofNat_toNat] at h

theorem reads_u4 (n : UInt32) : Reads u4 (Bytes.ofUInt32 n) n := by
  have h := (reads_number (show n.toNat < 256 ^ 4 from n.toNat_lt)).bind_pure UInt32.ofNat
  rwa [UInt32.ofNat_toNat] at h

theorem reads_u8 (n : UInt64) : Reads u8 (Bytes.ofUInt64 n) n := by
  have h := (reads_number (show n.toNat < 256 ^ 8 from n.toNat_lt)).bind_pure UInt64.ofNat
  rwa [UInt64.ofNat_toNat] at h

theorem reads_length {n : Nat} (h : n < 65536) :
    Reads u2 (Bytes.ofNatBE 2 n) (UInt16.ofNat n) := by
  have hread := reads_u2 (UInt16.ofNat n)
  rwa [Bytes.ofUInt16, UInt16.toNat_ofNat_of_lt' h] at hread

theorem reads_longLength {n : Nat} (h : n < 2 ^ 32) :
    Reads u4 (Bytes.ofNatBE 4 n) (UInt32.ofNat n) := by
  have hread := reads_u4 (UInt32.ofNat n)
  rwa [Bytes.ofUInt32, UInt32.toNat_ofNat_of_lt' h] at hread

/-! ## Repetition -/

private theorem reads_times {α β : Type} {read : Reader β} {encode : α → Bytes} {value : α → β}
    (xs : List α) (h : ∀ x ∈ xs, Reads read (encode x) (value x)) :
    Reads (times read xs.length) (xs.flatMap encode) (xs.map value) := by
  induction xs with
  | nil => exact reads_pure []
  | cons x xs ih =>
    have hrest := ih fun y hy => h y (by simp [hy])
    exact (h x (by simp)).bind (hrest.bind_pure (value x :: ·))

theorem reads_counted {α β : Type} {read : Reader β} {encode : α → Bytes} {value : α → β}
    (xs : List α) (hlen : xs.length < 65536) (h : ∀ x ∈ xs, Reads read (encode x) (value x)) :
    Reads (counted read) (Bytes.counted encode xs) (xs.map value) := by
  refine (reads_length hlen).bind ?_
  rw [UInt16.toNat_ofNat_of_lt' hlen]
  exact reads_times xs h

end Reader

end EndpointAudit
