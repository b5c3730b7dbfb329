import EndpointAudit.Text.Digits
import Mathlib.Algebra.Group.Nat.Defs
import Mathlib.Data.List.TakeDrop

/-!
# Numerals that are read back

Decimal numerals, padded or not, and hexadecimal ones denote the number they were written for.
-/

namespace EndpointAudit.Text

theorem isDigit_eq (c : Char) : isDigit c = c.isDigit := by
  have hzero : '0'.val.toNat = 0x30 := rfl
  have hnine : '9'.val.toNat = 0x39 := rfl
  simp only [isDigit, Char.isDigit, Char.toNat, ge_iff_le, UInt32.le_iff_toNat_le, hzero, hnine]

theorem isDigit_digitChar {n : Nat} (h : n < 10) : isDigit n.digitChar = true := by
  rw [isDigit_eq, Nat.isDigit_digitChar, decide_eq_true h]

/-- The digits in front of a text are split off up to what is no digit. -/
theorem span_isDigit_append {digits rest : List Char} (hdigits : ∀ c ∈ digits, isDigit c = true)
    (hrest : ∀ c ∈ rest.head?, isDigit c = false) :
    (digits ++ rest).span isDigit = (digits, rest) := by
  rw [List.span_eq_takeWhile_dropWhile, List.takeWhile_append_of_pos hdigits,
    List.dropWhile_append_of_pos hdigits]
  cases rest with
  | nil => simp
  | cons c rest =>
    have hc : isDigit c = false := hrest c rfl
    simp [hc]

/-! ## Decimal numerals -/

private theorem decimalNumber_eq (digits : List Char) :
    decimalNumber digits = Nat.ofDigitChars 10 digits 0 := by
  rw [Nat.ofDigitChars_eq_foldl]
  rfl

theorem decimalNumber_toDigits (n : Nat) : decimalNumber (Nat.toDigits 10 n) = n := by
  rw [decimalNumber_eq, Nat.ofDigitChars_toDigits (by omega) (by omega)]

private theorem decimalNumber_concat (digits : List Char) (c : Char) :
    decimalNumber (digits ++ [c]) = 10 * decimalNumber digits + (c.toNat - 0x30) := by
  simp [decimalNumber]

theorem isDigit_of_mem_toDigits {n : Nat} {c : Char} (h : c ∈ Nat.toDigits 10 n) :
    isDigit c = true := by
  rw [isDigit_eq]
  exact Nat.isDigit_of_mem_toDigits (by omega) (by omega) h

/-- The lowest `width` decimal digits of a number. -/
def decimal : (width n : Nat) → List Char
  | 0, _ => []
  | width + 1, n => decimal width (n / 10) ++ [(n % 10).digitChar]

theorem isDigit_of_mem_decimal {width n : Nat} {c : Char} (h : c ∈ decimal width n) :
    isDigit c = true := by
  induction width generalizing n with
  | zero => simp [decimal] at h
  | succ width ih =>
    rw [decimal, List.mem_append, List.mem_singleton] at h
    rcases h with h | rfl
    · exact ih h
    · exact isDigit_digitChar (Nat.mod_lt n (by omega))

theorem length_decimal (width n : Nat) : (decimal width n).length = width := by
  induction width generalizing n with
  | zero => rfl
  | succ width ih => rw [decimal, List.length_append, ih, List.length_singleton]

private theorem decimal_zero (width : Nat) : decimal width 0 = List.replicate width '0' := by
  induction width with
  | zero => rfl
  | succ width ih => rw [decimal, Nat.zero_div, ih, List.replicate_succ']; rfl

theorem decimalNumber_decimal {width n : Nat} (h : n < 10 ^ width) :
    decimalNumber (decimal width n) = n := by
  induction width generalizing n with
  | zero =>
    have hn : n = 0 := by simpa using h
    rw [hn]
    rfl
  | succ width ih =>
    have hdiv : n / 10 < 10 ^ width := by omega
    rw [decimal, decimalNumber_concat, ih hdiv,
      Nat.toNat_digitChar_sub_48_of_lt_ten (Nat.mod_lt n (by omega))]
    omega

private theorem toList_zeroPadded_eq (width n : Nat) : (zeroPadded width n).toList =
    List.replicate (width - (Nat.toDigits 10 n).length) '0' ++ Nat.toDigits 10 n := by
  rw [zeroPadded, padLeft, String.toList_append, String.toList_ofList,
    Nat.toString_eq_ofList_toDigits, String.toList_ofList, ← String.length_toList,
    String.toList_ofList]

theorem toList_zeroPadded {width n : Nat} (hw : 0 < width) (h : n < 10 ^ width) :
    (zeroPadded width n).toList = decimal width n := by
  rw [toList_zeroPadded_eq]
  induction width generalizing n with
  | zero => contradiction
  | succ width ih =>
    by_cases hn : n < 10
    · rw [Nat.toDigits_of_lt_base hn, decimal, Nat.div_eq_of_lt hn, Nat.mod_eq_of_lt hn,
        decimal_zero]
      rfl
    · have hdiv : n / 10 < 10 ^ width := by omega
      have hpos : 0 < width := by
        apply Nat.pos_of_ne_zero
        rintro rfl
        omega
      have hlength : width + 1 - (Nat.toDigits 10 (n / 10) ++ [(n % 10).digitChar]).length =
          width - (Nat.toDigits 10 (n / 10)).length := by
        rw [List.length_append, List.length_singleton]
        omega
      rw [Nat.toDigits_of_base_le (by omega) (by omega), decimal, hlength, ← List.append_assoc,
        ih hpos hdiv]

/-! ## Hexadecimal numerals -/

private theorem hexValue_hexDigit {n : Nat} (h : n < 16) : hexValue (hexDigit n) = some n := by
  have hall : ∀ n < 16, hexValue (hexDigit n) = some n := by decide
  exact hall n h

theorem hexNumber_hex {width n : Nat} (h : n < 16 ^ width) : hexNumber (hex width n) = some n := by
  induction width generalizing n with
  | zero =>
    have hn : n = 0 := by simpa using h
    rw [hn]
    rfl
  | succ width ih =>
    have hdiv : n / 16 < 16 ^ width := by omega
    have hfront := ih hdiv
    have hback := hexValue_hexDigit (Nat.mod_lt n (show 0 < 16 by omega))
    rw [hexNumber] at hfront
    rw [hex, hexNumber, List.foldlM_append, hfront]
    simp [hback]
    omega

end EndpointAudit.Text
