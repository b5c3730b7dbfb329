import EndpointAudit.Moment.Reader
import EndpointAudit.Proofs.Text.Numeral

/-!
# Moments that are read back

The text of a moment in a report, with or without a fraction and an offset, denotes that moment.
-/

namespace EndpointAudit.Moment

/-- A moment of the years 1 to 9999 whose offset is less than a day. -/
structure IsProper (m : Moment) : Prop where
  year : 1 ≤ m.year
  day : isDay m.year m.month m.day = true
  hour : m.hour ≤ 23
  minute : m.minute ≤ 59
  second : m.second ≤ 59
  micro : m.micro < 1000000
  offset : ∀ minutes ∈ m.offset, minutes.natAbs < 1440

private theorem daysInMonth_le (year month : Nat) : daysInMonth year month ≤ 31 := by
  unfold daysInMonth
  repeat' split
  all_goals omega

theorem month_lt_of_isDay {year month day : Nat} (h : isDay year month day = true) :
    month < 100 := by
  simp only [isDay, Bool.and_eq_true, decide_eq_true_eq] at h
  by_contra hmonth
  have hnone : daysInMonth year month = 0 := by
    unfold daysInMonth
    split <;> omega
  omega

theorem day_lt_of_isDay {year month day : Nat} (h : isDay year month day = true) : day < 100 := by
  have hmax := daysInMonth_le year month
  simp only [isDay, Bool.and_eq_true, decide_eq_true_eq] at h
  omega

theorem year_lt_of_isDay {year month day : Nat} (h : isDay year month day = true) :
    year < 10000 := by
  simp only [isDay, Bool.and_eq_true, decide_eq_true_eq] at h
  omega

/-! ## Parts of a moment -/

theorem twoDigits_decimal {n : Nat} (h : n < 100) (rest : List Char) :
    twoDigits (Text.decimal 2 n ++ rest) = some (n, rest) := by
  have hdigits : Text.decimal 2 n = [(n / 10 % 10).digitChar, (n % 10).digitChar] := rfl
  have htens := Text.isDigit_digitChar (Nat.mod_lt (n / 10) (show 0 < 10 by omega))
  have hones := Text.isDigit_digitChar (Nat.mod_lt n (show 0 < 10 by omega))
  have hnumber := Text.decimalNumber_decimal (show n < 10 ^ 2 by omega)
  rw [hdigits] at hnumber ⊢
  simp only [List.cons_append, List.nil_append, twoDigits, htens, hones, Bool.and_self, if_true,
    hnumber]

private theorem decimal_four (n : Nat) :
    Text.decimal 4 n = Text.decimal 2 (n / 100) ++ Text.decimal 2 (n % 100) := by
  have hthousands : n / 10 / 10 / 10 % 10 = n / 100 / 10 % 10 := by omega
  have hhundreds : n / 10 / 10 % 10 = n / 100 % 10 := by omega
  have htens : n / 10 % 10 = n % 100 / 10 % 10 := by omega
  have hones : n % 10 = n % 100 % 10 := by omega
  simp only [Text.decimal, List.nil_append, List.cons_append]
  rw [hthousands, hhundreds, ← htens, ← hones]

private theorem readDate_decimal {year month day : Nat} (h : isDay year month day = true)
    (rest : List Char) :
    readDate (Text.decimal 4 year ++ '-' :: (Text.decimal 2 month ++ '-' ::
      (Text.decimal 2 day ++ rest))) = some ((year, month, day), rest) := by
  have hyear := year_lt_of_isDay h
  have hsplit : 100 * (year / 100) + year % 100 = year := Nat.div_add_mod year 100
  rw [decimal_four, List.append_assoc]
  simp only [readDate, twoDigits_decimal (show year / 100 < 100 by omega),
    twoDigits_decimal (show year % 100 < 100 by omega), twoDigits_decimal (month_lt_of_isDay h),
    twoDigits_decimal (day_lt_of_isDay h), expect, Option.bind_eq_bind, Option.bind_some, if_true,
    hsplit, h]

/-- The fraction of a second, if there is one. -/
def fractionText (micro : Nat) : String := if micro = 0 then "" else "." ++ Text.zeroPadded 6 micro

private theorem readFraction_fractionText {micro : Nat} (h : micro < 1000000) {rest : List Char}
    (hrest : ∀ c ∈ rest.head?, Text.isDigit c = false ∧ c ≠ '.' ∧ c ≠ ',') :
    readFraction ((fractionText micro).toList ++ rest) = some (micro, rest) := by
  unfold fractionText
  split
  · next hzero =>
    subst hzero
    cases rest with
    | nil => rfl
    | cons c rest =>
      obtain ⟨-, hpoint, hcomma⟩ := hrest c rfl
      simp [readFraction, hpoint, hcomma]
  · have hdigits : ∀ c ∈ Text.decimal 6 micro, Text.isDigit c = true :=
      fun c => Text.isDigit_of_mem_decimal
    have hspan := Text.span_isDigit_append hdigits (fun c hc => (hrest c hc).1)
    have hlength := Text.length_decimal 6 micro
    have hmicro : microsOf (Text.decimal 6 micro) = micro := by
      rw [microsOf, List.take_append_of_le_length (by omega), List.take_of_length_le (by omega),
        Text.decimalNumber_decimal (by omega)]
    have hlist : ("." ++ Text.zeroPadded 6 micro).toList = '.' :: Text.decimal 6 micro := by
      rw [String.toList_append, Text.toList_zeroPadded (by omega) (by omega)]
      rfl
    rw [hlist, List.cons_append, readFraction, if_pos (.inl rfl), hspan]
    cases hcs : Text.decimal 6 micro with
    | nil => simp [hcs] at hlength
    | cons c cs => simp only [← hcs, hmicro]

/-- The offset behind a moment, if it has one. -/
def offsetMark : Option Int → String
  | none => ""
  | some 0 => "Z"
  | some minutes => offsetText minutes

theorem toList_offsetText {minutes : Int} (h : minutes.natAbs < 1440) :
    (offsetText minutes).toList = (if minutes < 0 then '-' else '+') ::
      (Text.decimal 2 (minutes.natAbs / 60) ++ ':' :: Text.decimal 2 (minutes.natAbs % 60)) := by
  have hhours := Text.toList_zeroPadded (show 0 < 2 by omega)
    (show minutes.natAbs / 60 < 10 ^ 2 by omega)
  have hminutes := Text.toList_zeroPadded (show 0 < 2 by omega)
    (show minutes.natAbs % 60 < 10 ^ 2 by omega)
  rw [offsetText, String.toList_append, String.toList_append, String.toList_append, hhours,
    hminutes]
  split <;> rfl

private theorem readOffset_offsetMark {offset : Option Int}
    (h : ∀ minutes ∈ offset, minutes.natAbs < 1440) :
    readOffset (offsetMark offset).toList = some offset := by
  unfold offsetMark
  split
  · rfl
  · rfl
  · next minutes _ =>
    have hlt : minutes.natAbs < 1440 := h minutes rfl
    have hhours := fun rest => twoDigits_decimal (show minutes.natAbs / 60 < 100 by omega) rest
    have hminutes := twoDigits_decimal (show minutes.natAbs % 60 < 100 by omega) []
    rw [List.append_nil] at hminutes
    have hvalue : minutes.natAbs / 60 < 24 ∧ minutes.natAbs % 60 < 60 := by omega
    rw [toList_offsetText hlt]
    generalize hn : minutes.natAbs = n at *
    by_cases hneg : minutes < 0
    · simp [readOffset, hneg, hhours, hminutes, expect, hvalue]
      omega
    · simp [readOffset, hneg, hhours, hminutes, expect, hvalue]
      omega

private theorem offsetMark_head {offset : Option Int}
    (h : ∀ minutes ∈ offset, minutes.natAbs < 1440) :
    ∀ c ∈ (offsetMark offset).toList.head?, Text.isDigit c = false ∧ c ≠ '.' ∧ c ≠ ',' := by
  unfold offsetMark
  split
  · simp
  · simp [Text.isDigit]
  · next minutes _ =>
    rw [toList_offsetText (h minutes rfl)]
    split <;> simp [Text.isDigit]

/-! ## Whole moments -/

private theorem toList_text {m : Moment} (h : m.IsProper) :
    m.text.toList = Text.decimal 4 m.year ++ '-' :: (Text.decimal 2 m.month ++ '-' ::
      (Text.decimal 2 m.day ++ 'T' :: (Text.decimal 2 m.hour ++ ':' :: (Text.decimal 2 m.minute ++
        ':' :: (Text.decimal 2 m.second ++ ((fractionText m.micro).toList ++
          (offsetMark m.offset).toList)))))) := by
  have hyear := year_lt_of_isDay h.day
  have hmonth := month_lt_of_isDay h.day
  have hday := day_lt_of_isDay h.day
  have hhour := h.hour
  have hminute := h.minute
  have hsecond := h.second
  have htext : m.text = m.localText ++ offsetMark m.offset := by
    unfold text offsetMark
    rfl
  have hpadded : ∀ n < 100, (Text.zeroPadded 2 n).toList = Text.decimal 2 n :=
    fun n hn => Text.toList_zeroPadded (by omega) (by omega)
  have hfour := Text.toList_zeroPadded (show 0 < 4 by omega) (show m.year < 10 ^ 4 by omega)
  rw [htext, localText]
  simp only [String.toList_append, hpadded m.month hmonth, hpadded m.day hday,
    hpadded m.hour (by omega), hpadded m.minute (by omega), hpadded m.second (by omega), hfour]
  simp [fractionText]

private theorem ofDateTime?_text {m : Moment} (h : m.IsProper) :
    ofDateTime? m.text.toList = some m := by
  have hhour := h.hour
  have hminute := h.minute
  have hsecond := h.second
  have hseconds : readSeconds (':' :: (Text.decimal 2 m.second ++
      ((fractionText m.micro).toList ++ (offsetMark m.offset).toList))) =
        some ((m.second, m.micro), (offsetMark m.offset).toList) := by
    simp only [readSeconds, twoDigits_decimal (show m.second < 100 by omega),
      readFraction_fractionText h.micro (offsetMark_head h.offset), Option.bind_eq_bind,
      Option.bind_some, hsecond, if_true]
  rw [toList_text h]
  simp only [ofDateTime?, readDate_decimal h.day, Option.bind_eq_bind, Option.bind_some, true_or,
    if_true, twoDigits_decimal (show m.hour < 100 by omega),
    twoDigits_decimal (show m.minute < 100 by omega), expect, hseconds,
    readOffset_offsetMark h.offset, hhour, hminute, decide_true, Bool.and_self]

/-- The text of a proper moment denotes that moment. -/
theorem ofText?_text {m : Moment} (h : m.IsProper) : ofText? m.text = some m := by
  rw [ofText?, ofDateTime?_text h, Option.some_or]

end EndpointAudit.Moment
