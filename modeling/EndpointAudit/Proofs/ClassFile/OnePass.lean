import EndpointAudit.ClassFile.ModifiedUtf8
import EndpointAudit.Proofs.Bytes.Utf8

/-!
# Reading modified UTF-8 in one pass

A byte string can be read in one pass that takes long zeros as they come and joins surrogates where
they meet. Trying UTF-8 first, replacing long zeros anywhere in the bytes and going through UTF-16
comes to the same for every byte string, well-formed or not: no byte of a long zero continues
another sequence, and a code point has the surrogates of its units.
-/

namespace EndpointAudit.ModifiedUtf8

/-- The code point at the front of a byte string, which may be a long zero, and what follows it. -/
def nextPoint : Bytes → Option (Nat × Bytes)
  | a :: b :: rest =>
    if a = 0xC0 ∧ b = 0x80 then some (0, rest) else codePoint (a :: b :: rest)
  | bytes => codePoint bytes

private theorem nextPoint_length {bytes rest : Bytes} {n : Nat}
    (h : nextPoint bytes = some (n, rest)) : rest.length < bytes.length := by
  unfold nextPoint at h
  split at h
  · split at h
    · cases h
      simp only [List.length_cons]
      omega
    · exact codePoint_length h
  · exact codePoint_length h

/-- The code points of a byte string, long zeros included. -/
def points (bytes : Bytes) : Option (List Nat) :=
  match bytes with
  | [] => some []
  | b :: bs =>
    match _h : nextPoint (b :: bs) with
    | none => none
    | some (n, rest) => (points rest).map (n :: ·)
termination_by bytes.length
decreasing_by exact nextPoint_length (by assumption)

/-- The text of a byte string, read in one pass. -/
def onePass (bytes : Bytes) : Option String :=
  ((points bytes).bind joinPairs).map String.ofList

private theorem points_cons (b : UInt8) (bs : Bytes) : points (b :: bs) =
    (nextPoint (b :: bs)).bind fun p => (points p.2).map (p.1 :: ·) := by
  rw [points]
  split
  · next hnone => rw [hnone, Option.bind_none]
  · next hsome => rw [hsome, Option.bind_some]

theorem codePoints_cons (b : UInt8) (bs : Bytes) : codePoints (b :: bs) =
    (codePoint (b :: bs)).bind fun p => (codePoints p.2).map (p.1 :: ·) := by
  rw [codePoints]
  split
  · next hnone => rw [hnone, Option.bind_none]
  · next hsome => rw [hsome, Option.bind_some]

/-! ## Long zeros -/

theorem shortenZeros_cons {a : UInt8} (h : a ≠ 0xC0) (rest : Bytes) :
    shortenZeros (a :: rest) = a :: shortenZeros rest := by
  cases rest with
  | nil => rfl
  | cons b rest => rw [shortenZeros, if_neg (fun hzero => h hzero.1)]

/-- Shortening keeps a byte that continues a sequence, and makes none. -/
theorem continued_shortenZeros (count bits : Nat) (bytes : Bytes) :
    continued count bits (shortenZeros bytes) =
      (continued count bits bytes).map fun p => (p.1, shortenZeros p.2) := by
  induction count generalizing bits bytes with
  | zero => rfl
  | succ count ih =>
    cases bytes with
    | nil => rfl
    | cons b rest =>
      by_cases hb : b = 0xC0
      · -- Neither the first byte of a long zero nor a zero continues a sequence.
        have hstart : continuation 0xC0 = none := by decide
        have hzero : continuation 0 = none := by decide
        subst hb
        cases rest with
        | nil => simp [shortenZeros, continued, hstart]
        | cons c rest =>
          rw [shortenZeros]
          split <;> simp [continued, hstart, hzero]
      · rw [shortenZeros_cons hb]
        simp only [continued]
        cases continuation b with
        | none => rfl
        | some y => exact ih _ rest

private theorem longPoint_shortenZeros (count bits least : Nat) (bytes : Bytes) :
    longPoint count bits least (shortenZeros bytes) =
      (longPoint count bits least bytes).map fun p => (p.1, shortenZeros p.2) := by
  rw [longPoint, longPoint, continued_shortenZeros]
  cases continued count bits bytes with
  | none => rfl
  | some p =>
    simp only [Option.map_some]
    split <;> rfl

/-- A byte `C0` begins no code point. -/
theorem codePoint_longZero (rest : Bytes) : codePoint (0xC0 :: rest) = none := by
  cases rest with
  | nil => rfl
  | cons b rest =>
    have hlead : codePoint (0xC0 :: b :: rest) = longPoint 1 0 0x80 (b :: rest) := rfl
    rw [hlead, longPoint, continued]
    cases hb : continuation b with
    | none => rfl
    | some y =>
      have hy : y < 0x40 := by
        unfold continuation at hb
        split at hb
        · next hrange =>
          simp only [Bool.and_eq_true, decide_eq_true_eq] at hrange
          rw [Option.some.injEq] at hb
          omega
        · cases hb
      have hleast : ¬ 0x80 ≤ 0 * 0x40 + y := by omega
      simp only [continued, hleast, decide_false, Bool.false_and, Bool.false_eq_true, if_false]

theorem codePoint_shortenZeros (bytes : Bytes) :
    codePoint (shortenZeros bytes) =
      (nextPoint bytes).map fun p => (p.1, shortenZeros p.2) := by
  cases bytes with
  | nil => rfl
  | cons a rest =>
    by_cases ha : a = 0xC0
    · subst ha
      cases rest with
      | nil => rfl
      | cons b rest =>
        rw [shortenZeros, nextPoint]
        split
        · rfl
        · rw [codePoint_longZero, codePoint_longZero, Option.map_none]
    · have hnext : nextPoint (a :: rest) = codePoint (a :: rest) := by
        cases rest with
        | nil => rfl
        | cons b rest => rw [nextPoint, if_neg (fun hzero => ha hzero.1)]
      rw [shortenZeros_cons ha, hnext]
      simp only [codePoint]
      split
      · rfl
      · simp only [apply_ite (Option.map _), Option.map_none, longPoint_shortenZeros]

private theorem codePoints_shortenZeros (bytes : Bytes) :
    codePoints (shortenZeros bytes) = points bytes := by
  have hcons (b : UInt8) (bs : Bytes) : ∃ c cs, shortenZeros (b :: bs) = c :: cs := by
    cases bs with
    | nil => exact ⟨b, [], rfl⟩
    | cons b' bs =>
      rw [shortenZeros]
      split <;> exact ⟨_, _, rfl⟩
  fun_induction points bytes with
  | case1 => simp [shortenZeros, codePoints]
  | case2 b bs hnext =>
    obtain ⟨c, cs, hshort⟩ := hcons b bs
    rw [hshort, codePoints_cons, ← hshort, codePoint_shortenZeros, hnext]
    rfl
  | case3 b bs n rest hnext ih =>
    obtain ⟨c, cs, hshort⟩ := hcons b bs
    rw [hshort, codePoints_cons, ← hshort, codePoint_shortenZeros, hnext]
    simp only [Option.map_some, Option.bind_some, ih]

/-! ## Through UTF-16 -/

theorem toNat_byte {n : Nat} (h : n < 0x100) : (UInt8.ofNat n).toNat = n :=
  UInt8.toNat_ofNat_of_lt' h

namespace Utf16

private theorem readUnits_flatMap (us : List Nat) (h : ∀ u ∈ us, u < 0x10000) :
    readUnits (us.flatMap unitBytes) = some us := by
  induction us with
  | nil => rfl
  | cons u us ih =>
    have hu := h u List.mem_cons_self
    have hlow : (UInt8.ofNat (u % 0x100)).toNat = u % 0x100 := toNat_byte (by omega)
    have hhigh : (UInt8.ofNat (u / 0x100)).toNat = u / 0x100 := toNat_byte (by omega)
    have hunit : u % 0x100 + u / 0x100 * 0x100 = u := by omega
    rw [List.flatMap_cons, unitBytes]
    simp only [List.cons_append, List.nil_append, readUnits, hlow, hhigh, hunit]
    rw [ih fun u' hu' => h u' (List.mem_cons_of_mem _ hu'), Option.map_some]

private theorem units_lt {n u : Nat} (hn : n ≤ 0x10FFFF) (hu : u ∈ units n) : u < 0x10000 := by
  unfold units at hu
  split at hu
  · simp only [List.mem_singleton] at hu
    omega
  · simp only [List.mem_cons, List.not_mem_nil, or_false] at hu
    omega

private theorem read_write {ps : List Nat} (h : ∀ n ∈ ps, n ≤ 0x10FFFF) :
    read (write ps) = joinPairs (ps.flatMap units) := by
  have hunits : ∀ u ∈ mark :: ps.flatMap units, u < 0x10000 := by
    intro u hu
    rcases List.mem_cons.mp hu with rfl | hu
    · decide
    · obtain ⟨n, hn, hu⟩ := List.mem_flatMap.mp hu
      exact units_lt (h n hn) hu
  rw [read, write, readUnits_flatMap _ hunits]
  rfl

end Utf16

theorem joinPairs_cons {n : Nat} (rest : List Nat) (hh : isHighSurrogate n = false)
    (hl : isLowSurrogate n = false) :
    joinPairs (n :: rest) = (joinPairs rest).map (Char.ofNat n :: ·) := by
  cases rest with
  | nil => simp [joinPairs, hh, hl]
  | cons m rest => simp [joinPairs, hh, hl]

theorem joinPairs_low {n : Nat} (rest : List Nat) (hh : isHighSurrogate n = false)
    (hl : isLowSurrogate n = true) : joinPairs (n :: rest) = none := by
  cases rest with
  | nil => simp [joinPairs, hl]
  | cons m rest => simp [joinPairs, hh, hl]

theorem joinPairs_high {n : Nat} {rest : List Nat} (hh : isHighSurrogate n = true)
    (hnext : ∀ m ∈ rest.head?, isLowSurrogate m = false) : joinPairs (n :: rest) = none := by
  cases rest with
  | nil => simp [joinPairs, hh]
  | cons m rest => simp [joinPairs, hh, hnext m rfl]

/-- The units of a code point beyond the basic plane are joined to it again. -/
theorem joinPairs_units {n : Nat} (h : 0x10000 ≤ n) (h' : n ≤ 0x10FFFF) (rest : List Nat) :
    joinPairs (Utf16.units n ++ rest) = (joinPairs rest).map (Char.ofNat n :: ·) := by
  have hhigh : isHighSurrogate (0xD800 + (n - 0x10000) / 0x400) = true := by
    simp only [isHighSurrogate, Bool.and_eq_true, decide_eq_true_eq]
    omega
  have hlow : isLowSurrogate (0xDC00 + (n - 0x10000) % 0x400) = true := by
    simp only [isLowSurrogate, Bool.and_eq_true, decide_eq_true_eq]
    omega
  have hjoin : 0x10000 + (0xD800 + (n - 0x10000) / 0x400 - 0xD800) * 0x400 +
      (0xDC00 + (n - 0x10000) % 0x400 - 0xDC00) = n := by omega
  rw [Utf16.units, if_neg (by omega)]
  simp only [List.cons_append, List.nil_append, joinPairs]
  rw [if_pos hhigh, if_pos hlow, hjoin]

theorem units_of_surrogate {n : Nat} (h : isHighSurrogate n = true ∨ isLowSurrogate n = true) :
    Utf16.units n = [n] := by
  apply if_pos
  simp only [isHighSurrogate, isLowSurrogate, Bool.and_eq_true, decide_eq_true_eq] at h
  omega

private theorem isLowSurrogate_head_units {n m : Nat} (hn : n ≤ 0x10FFFF)
    (hl : isLowSurrogate n = false) (rest : List Nat)
    (hm : m ∈ (Utf16.units n ++ rest).head?) : isLowSurrogate m = false := by
  unfold Utf16.units at hm
  split at hm
  · simp only [List.cons_append, List.head?_cons, Option.mem_def, Option.some.injEq] at hm
    rwa [← hm]
  · simp only [List.cons_append, List.head?_cons, Option.mem_def, Option.some.injEq] at hm
    simp only [isLowSurrogate, Bool.and_eq_false_iff, decide_eq_false_iff_not]
    omega

/-- A code point that is no surrogate is joined to its character. -/
theorem joinPairs_units_append {n : Nat} (hn : n ≤ 0x10FFFF) (hh : isHighSurrogate n = false)
    (hl : isLowSurrogate n = false) (rest : List Nat) :
    joinPairs (Utf16.units n ++ rest) = (joinPairs rest).map (Char.ofNat n :: ·) := by
  by_cases hbasic : n < 0x10000
  · rw [Utf16.units, if_pos hbasic, List.singleton_append, joinPairs_cons rest hh hl]
  · exact joinPairs_units (by omega) hn rest

/-- Code points and their units are joined to the same characters. -/
theorem joinPairs_flatMap_units {ps : List Nat} (h : ∀ n ∈ ps, n ≤ 0x10FFFF) :
    joinPairs (ps.flatMap Utf16.units) = joinPairs ps := by
  fun_induction joinPairs ps with
  | case1 => rfl
  | case2 n hn =>
    rw [Bool.or_eq_true] at hn
    rw [List.flatMap_cons, units_of_surrogate hn]
    simp [joinPairs, hn]
  | case3 n hn =>
    rw [Bool.not_eq_true, Bool.or_eq_false_iff] at hn
    rw [List.flatMap_cons, joinPairs_units_append (h n (by simp)) hn.1 hn.2]
    rfl
  | case4 n m rest hh hl ih =>
    rw [List.flatMap_cons, List.flatMap_cons, units_of_surrogate (.inl hh),
      units_of_surrogate (.inr hl), List.singleton_append, List.singleton_append, joinPairs,
      if_pos hh, if_pos hl, ih fun k hk => h k (by simp [hk])]
  | case5 n m rest hh hl =>
    rw [List.flatMap_cons, List.flatMap_cons, units_of_surrogate (.inl hh), List.singleton_append]
    apply joinPairs_high hh
    intro k hk
    exact isLowSurrogate_head_units (h m (by simp)) (by simpa using hl) _ hk
  | case6 n m rest hh hl =>
    rw [List.flatMap_cons, units_of_surrogate (.inr hl), List.singleton_append]
    exact joinPairs_low _ (by simpa using hh) hl
  | case7 n m rest hh hl ih =>
    rw [List.flatMap_cons, joinPairs_units_append (h n (by simp)) (by simpa using hh)
      (by simpa using hl), ih fun k hk => h k (List.mem_cons_of_mem _ hk)]

/-! ## Code points -/

private theorem le_of_longPoint {count bits least n : Nat} {bytes rest : Bytes}
    (h : longPoint count bits least bytes = some (n, rest)) : n ≤ 0x10FFFF := by
  unfold longPoint at h
  split at h
  · split at h
    · next hrange =>
      cases h
      simp only [Bool.and_eq_true, decide_eq_true_eq] at hrange
      exact hrange.2
    · cases h
  · cases h

theorem le_of_codePoint {bytes rest : Bytes} {n : Nat} (h : codePoint bytes = some (n, rest)) :
    n ≤ 0x10FFFF := by
  cases bytes with
  | nil => cases h
  | cons a bytes =>
    simp only [codePoint] at h
    split at h
    · cases h
      omega
    · repeat' split at h
      all_goals first | cases h | exact le_of_longPoint h

private theorem le_of_nextPoint {bytes rest : Bytes} {n : Nat}
    (h : nextPoint bytes = some (n, rest)) : n ≤ 0x10FFFF := by
  unfold nextPoint at h
  split at h
  · split at h
    · cases h
      omega
    · exact le_of_codePoint h
  · exact le_of_codePoint h

private theorem le_of_points {bytes : Bytes} {ps : List Nat} (h : points bytes = some ps) :
    ∀ n ∈ ps, n ≤ 0x10FFFF := by
  fun_induction points bytes generalizing ps with
  | case1 =>
    cases h
    simp
  | case2 => cases h
  | case3 b bs n rest hnext ih =>
    obtain ⟨ns, hns, rfl⟩ := Option.map_eq_some_iff.mp h
    intro m hm
    rcases List.mem_cons.mp hm with rfl | hm
    · exact le_of_nextPoint hnext
    · exact ih hns m hm

theorem continuation_ofNat {m : Nat} (h : m < 0x40) :
    continuation (UInt8.ofNat (0x80 + m)) = some m := by
  rw [continuation, toNat_byte (by omega), if_pos (by simp; omega), Nat.add_sub_cancel_left]

theorem codePoint_one {n : Nat} (h : n < 0x80) (rest : Bytes) :
    codePoint (UInt8.ofNat n :: rest) = some (n, rest) := by
  simp only [codePoint, toNat_byte (show n < 0x100 by omega), h, if_true]

theorem codePoint_two {n : Nat} (h : 0x80 ≤ n) (h' : n < 0x800) (rest : Bytes) :
    codePoint (UInt8.ofNat (0xC0 + n / 0x40) :: UInt8.ofNat (0x80 + n % 0x40) :: rest) =
      some (n, rest) := by
  have hb := toNat_byte (show 0xC0 + n / 0x40 < 0x100 by omega)
  have hc := continuation_ofNat (Nat.mod_lt n (by omega : 0 < 0x40))
  have hcode : n / 0x40 * 0x40 + n % 0x40 = n := Nat.div_add_mod' n 0x40
  have hmax : n ≤ 0x10FFFF := by omega
  simp only [codePoint, hb]
  rw [if_neg (by omega), if_neg (by omega), if_pos (by omega), longPoint]
  simp only [continued, hc, Nat.add_sub_cancel_left, hcode, h, hmax, decide_true, Bool.and_self,
    if_true]

theorem codePoint_three {n : Nat} (h : 0x800 ≤ n) (h' : n < 0x10000) (rest : Bytes) :
    codePoint (UInt8.ofNat (0xE0 + n / 0x1000) :: UInt8.ofNat (0x80 + n / 0x40 % 0x40) ::
      UInt8.ofNat (0x80 + n % 0x40) :: rest) = some (n, rest) := by
  have hb := toNat_byte (show 0xE0 + n / 0x1000 < 0x100 by omega)
  have hc := continuation_ofNat (Nat.mod_lt (n / 0x40) (by omega : 0 < 0x40))
  have hd := continuation_ofNat (Nat.mod_lt n (by omega : 0 < 0x40))
  have hcode : (n / 0x1000 * 0x40 + n / 0x40 % 0x40) * 0x40 + n % 0x40 = n := by omega
  have hmax : n ≤ 0x10FFFF := by omega
  simp only [codePoint, hb]
  rw [if_neg (by omega), if_neg (by omega), if_neg (by omega), if_pos (by omega), longPoint]
  simp only [continued, hc, hd, Nat.add_sub_cancel_left, hcode, h, hmax, decide_true,
    Bool.and_self, if_true]

private theorem codePoint_four {n : Nat} (h : 0x10000 ≤ n) (h' : n < 0x110000) (rest : Bytes) :
    codePoint (UInt8.ofNat (0xF0 + n / 0x40000) :: UInt8.ofNat (0x80 + n / 0x1000 % 0x40) ::
      UInt8.ofNat (0x80 + n / 0x40 % 0x40) :: UInt8.ofNat (0x80 + n % 0x40) :: rest) =
      some (n, rest) := by
  have hb := toNat_byte (show 0xF0 + n / 0x40000 < 0x100 by omega)
  have hc := continuation_ofNat (Nat.mod_lt (n / 0x1000) (by omega : 0 < 0x40))
  have hd := continuation_ofNat (Nat.mod_lt (n / 0x40) (by omega : 0 < 0x40))
  have he := continuation_ofNat (Nat.mod_lt n (by omega : 0 < 0x40))
  have hcode : ((n / 0x40000 * 0x40 + n / 0x1000 % 0x40) * 0x40 + n / 0x40 % 0x40) * 0x40 +
      n % 0x40 = n := by omega
  have hmax : n ≤ 0x10FFFF := by omega
  simp only [codePoint, hb]
  rw [if_neg (by omega), if_neg (by omega), if_neg (by omega), if_neg (by omega),
    if_pos (by omega), longPoint]
  simp only [continued, hc, hd, he, Nat.add_sub_cancel_left, hcode, h, hmax, decide_true,
    Bool.and_self, if_true]

/-- A character is a code point that is no surrogate. -/
theorem toNat_cases (c : Char) : c.toNat < 0xD800 ∨ (0xDFFF < c.toNat ∧ c.toNat < 0x110000) :=
  c.valid

private theorem codePoint_utf8EncodeChar (c : Char) (rest : Bytes) :
    codePoint (String.utf8EncodeChar c ++ rest) = some (c.toNat, rest) := by
  have hlt : c.toNat < 0x110000 := by
    have hcases := toNat_cases c
    omega
  have hval : c.val.toNat = c.toNat := rfl
  simp only [String.utf8EncodeChar, hval]
  generalize c.toNat = n at hlt ⊢
  split
  · next h1 => exact codePoint_one (by omega) rest
  · split
    · next h1 h2 =>
      have hfirst : n / 0x40 % 0x20 = n / 0x40 := Nat.mod_eq_of_lt (by omega)
      rw [hfirst, Nat.add_comm _ 0xC0, Nat.add_comm _ 0x80]
      exact codePoint_two (by omega) (by omega) rest
    · split
      · next h1 h2 h3 =>
        have hfirst : n / 0x1000 % 0x10 = n / 0x1000 := Nat.mod_eq_of_lt (by omega)
        rw [hfirst, Nat.add_comm _ 0xE0, Nat.add_comm _ 0x80, Nat.add_comm _ 0x80]
        exact codePoint_three (by omega) (by omega) rest
      · next h1 h2 h3 =>
        have hfirst : n / 0x40000 % 0x08 = n / 0x40000 := Nat.mod_eq_of_lt (by omega)
        rw [hfirst, Nat.add_comm _ 0xF0, Nat.add_comm _ 0x80, Nat.add_comm _ 0x80,
          Nat.add_comm _ 0x80]
        exact codePoint_four (by omega) hlt rest

/-! ## One pass -/

/-- A code point that is no long zero is taken as it is. -/
theorem nextPoint_of_codePoint {bytes rest : Bytes} {n : Nat}
    (h : codePoint bytes = some (n, rest)) : nextPoint bytes = some (n, rest) := by
  unfold nextPoint
  split
  · split
    · next hzero =>
      rw [hzero.1, codePoint_longZero] at h
      cases h
    · exact h
  · exact h

theorem points_of_nextPoint {bytes rest : Bytes} {n : Nat}
    (h : nextPoint bytes = some (n, rest)) : points bytes = (points rest).map (n :: ·) := by
  cases bytes with
  | nil => cases h
  | cons b bs => rw [points_cons, h, Option.bind_some]

private theorem points_utf8 (cs : List Char) :
    points (cs.flatMap String.utf8EncodeChar) = some (cs.map Char.toNat) := by
  induction cs with
  | nil => simp [points]
  | cons c cs ih =>
    have hnext := nextPoint_of_codePoint
      (codePoint_utf8EncodeChar c (cs.flatMap String.utf8EncodeChar))
    rw [List.flatMap_cons, points_of_nextPoint hnext, ih]
    rfl

private theorem joinPairs_map_toNat (cs : List Char) : joinPairs (cs.map Char.toNat) = some cs := by
  induction cs with
  | nil => rfl
  | cons c cs ih =>
    have hcases := toNat_cases c
    have hhigh : isHighSurrogate c.toNat = false := by
      simp [isHighSurrogate]
      omega
    have hlow : isLowSurrogate c.toNat = false := by
      simp [isLowSurrogate]
      omega
    rw [List.map_cons, joinPairs_cons _ hhigh hlow, ih, Char.ofNat_toNat]
    rfl

/-- Plain UTF-8 is read as such, zero bytes and sequences of four bytes included. -/
theorem onePass_ofText (text : String) : onePass (Bytes.ofText text) = some text := by
  rw [onePass, Bytes.ofText, points_utf8, Option.bind_some, joinPairs_map_toNat, Option.map_some,
    String.ofList_toList]

/-- **One pass is enough.** Every byte string is read as it is in one pass. -/
theorem decode_eq_onePass (bytes : Bytes) : decode bytes = onePass bytes := by
  unfold decode
  split
  · next text htext =>
    rw [Bytes.text?_eq_some_iff.mp htext, onePass_ofText]
  · rw [codePoints_shortenZeros, onePass]
    cases hpoints : points bytes with
    | none => rfl
    | some ps =>
      have hle := le_of_points hpoints
      rw [Option.bind_eq_bind, Option.bind_some, Option.bind_some, Utf16.read_write hle,
        joinPairs_flatMap_units hle]
      cases joinPairs ps <;> rfl

end EndpointAudit.ModifiedUtf8
