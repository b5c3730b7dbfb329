import EndpointAudit.Json.Printer
import EndpointAudit.Json.Reader
import EndpointAudit.Proofs.Data.Document
import EndpointAudit.Proofs.Text.Numeral
import Mathlib.Data.List.DropRight

/-!
# JSON texts that are read back

A document that is written as JSON, on one line or on many, is read back as the data it stands
for. The reader has two limits: the depth of the nesting and the length of a number.
-/

namespace EndpointAudit.Json

/-! ## Strings -/

private theorem fourHex_hex {n : Nat} (h : n < 16 ^ 4) (rest : List Char) :
    fourHex (Text.hex 4 n ++ rest) = some (n, rest) := by
  show (Text.hexNumber (Text.hex 4 n)).map (·, rest) = _
  rw [Text.hexNumber_hex h]
  rfl

private theorem unitChar_of_lt {unit : Nat} (h : unit < 0xD800) (rest : List Char) :
    unitChar unit rest = some (Char.ofNat unit, rest) := by
  have hhigh : ¬ 0xD800 ≤ unit := by omega
  have hlow : ¬ 0xDC00 ≤ unit := by omega
  simp [unitChar, hhigh, hlow]

/-- A character stands for itself, or for what the reader takes behind a backslash. -/
theorem escapedChar_cases (c : Char) :
    (escapedChar c = [c] ∧ c ≠ '"' ∧ c ≠ '\\' ∧ 0x20 ≤ c.toNat) ∨
      ∃ escape, escapedChar c = '\\' :: escape ∧
        ∀ rest, escapeChar (escape ++ rest) = some (c, rest) := by
  unfold escapedChar
  split
  case h_8 hquote hbackslash _ _ _ _ _ =>
    by_cases hcontrol : c.toNat < 0x20
    · rw [if_pos hcontrol]
      refine .inr ⟨_, rfl, fun rest => ?_⟩
      have hunit := unitChar_of_lt (show c.toNat < 0xD800 by omega) rest
      rw [Char.ofNat_toNat] at hunit
      rw [List.cons_append, escapeChar, fourHex_hex (by omega)]
      exact hunit
    · rw [if_neg hcontrol]
      refine .inl ⟨rfl, ?_, ?_, by omega⟩
      · rintro rfl
        exact hquote rfl
      · rintro rfl
        exact hbackslash rfl
  all_goals
    next h =>
    obtain rfl := (Char.ofNat_toNat c).symm.trans (congrArg Char.ofNat h)
    exact .inr ⟨_, rfl, fun rest => rfl⟩

private theorem stringRest_escapedChar (fuel : Nat) (read : List Char) (c : Char)
    (rest : List Char) :
    stringRest (fuel + 1) read (escapedChar c ++ rest) = stringRest fuel (c :: read) rest := by
  rcases escapedChar_cases c with ⟨hself, hquote, hbackslash, hcode⟩ | ⟨escape, hescape, hread⟩
  · have hcode' : ¬ c.toNat < 0x20 := by omega
    rw [hself, List.singleton_append, stringRest, if_neg hquote, if_neg hbackslash, if_neg hcode']
  · rw [hescape, List.cons_append, stringRest, if_neg (by decide), if_pos rfl, hread]
    rfl

private theorem stringRest_flatMap (cs rest read : List Char) {fuel : Nat} (h : cs.length < fuel) :
    stringRest fuel read (cs.flatMap escapedChar ++ '"' :: rest) =
      some (String.ofList (read.reverse ++ cs), rest) := by
  obtain ⟨fuel, rfl⟩ := Nat.exists_eq_add_of_lt h
  induction cs generalizing read fuel with
  | nil => simp [stringRest]
  | cons c cs ih =>
    have hfuel : (c :: cs).length + fuel + 1 = (cs.length + fuel + 1) + 1 := by
      rw [List.length_cons]
      omega
    rw [hfuel, List.flatMap_cons, List.append_assoc, stringRest_escapedChar, ih _ _ (by omega)]
    simp

private theorem length_le_flatMap_escapedChar (cs : List Char) :
    cs.length ≤ (cs.flatMap escapedChar).length := by
  induction cs with
  | nil => simp
  | cons c cs ih =>
    have hc : 0 < (escapedChar c).length := by
      rcases escapedChar_cases c with ⟨hself, -⟩ | ⟨escape, hescape, -⟩
      · simp [hself]
      · simp [hescape]
    rw [List.flatMap_cons, List.length_append, List.length_cons]
    omega

theorem toList_string (text : String) :
    (string text).toList = '"' :: (text.toList.flatMap escapedChar ++ ['"']) := by
  rw [string, String.toList_ofList, List.cons_append]

/-- A string is read back, with what follows it. -/
theorem stringRest_string (text : String) (rest : List Char) :
    ∃ body, (string text).toList ++ rest = '"' :: body ∧
      stringRest (body.length + 1) [] body = some (text, rest) := by
  refine ⟨text.toList.flatMap escapedChar ++ '"' :: rest, by simp [toList_string], ?_⟩
  have hlength := length_le_flatMap_escapedChar text.toList
  rw [stringRest_flatMap]
  · simp
  · rw [List.length_append]
    omega

/-! ## Numbers -/

/-- Whether a text can follow a number without becoming part of it. -/
def EndsNumber (rest : List Char) : Prop :=
  ∀ c ∈ rest.head?, Text.isDigit c = false ∧ c ≠ '.' ∧ c ≠ 'e' ∧ c ≠ 'E'

private theorem fraction_of_endsNumber {rest : List Char} (h : EndsNumber rest) :
    fraction rest = some (none, rest) := by
  unfold fraction
  split
  · exact absurd rfl (h '.' rfl).2.1
  · rfl

private theorem exponent_of_endsNumber {rest : List Char} (h : EndsNumber rest) :
    exponent rest = some (none, rest) := by
  cases rest with
  | nil => rfl
  | cons c rest =>
    obtain ⟨-, -, he, hE⟩ := h c rfl
    simp [exponent, he, hE]

private theorem digits_append {ds rest : List Char} (hne : ds ≠ [])
    (hdigits : ∀ c ∈ ds, Text.isDigit c = true) (hrest : EndsNumber rest) :
    digits (ds ++ rest) = some (ds, rest) := by
  rw [digits, Text.span_isDigit_append hdigits fun c hc => (hrest c hc).1]
  cases ds with
  | nil => contradiction
  | cons d ds => rfl

private theorem head?_toDigits {n : Nat} (h : 0 < n) : (Nat.toDigits 10 n).head? ≠ some '0' := by
  induction n using Nat.strongRecOn with
  | ind n ih =>
    by_cases hn : n < 10
    · rw [Nat.toDigits_of_lt_base hn]
      have hall : ∀ n < 10, 0 < n → [n.digitChar].head? ≠ some '0' := by decide
      exact hall n hn h
    · obtain ⟨d, ds, hfront⟩ := List.exists_cons_of_ne_nil
        (show Nat.toDigits 10 (n / 10) ≠ [] from Nat.toDigits_ne_nil)
      have hne := ih (n / 10) (by omega) (by omega)
      rw [Nat.toDigits_of_base_le (by omega) (by omega)]
      rw [hfront] at hne ⊢
      exact hne

/-- Only a single digit can be a zero in front. -/
theorem head?_toDigits_of_length {n : Nat} (h : 1 < (Nat.toDigits 10 n).length) :
    (Nat.toDigits 10 n).head? ≠ some '0' := by
  apply head?_toDigits
  apply Nat.pos_of_ne_zero
  rintro rfl
  exact absurd h (by decide)

theorem number_toDigits {negative : Bool} {n : Nat} {rest : List Char}
    (hsize : (Nat.toDigits 10 n).length + (if negative then 1 else 0) ≤ maxWhole)
    (hrest : EndsNumber rest) :
    number negative (Nat.toDigits 10 n ++ rest) =
      some (.int (if negative then -(n : Int) else n), rest) := by
  have hdigits : digits (Nat.toDigits 10 n ++ rest) = some (Nat.toDigits 10 n, rest) :=
    digits_append Nat.toDigits_ne_nil (fun c hc => Text.isDigit_of_mem_toDigits hc) hrest
  have hwhole : ¬ (Nat.toDigits 10 n).length + (if negative then 1 else 0) > maxWhole := by omega
  have hzero : 1 < (Nat.toDigits 10 n).length → (Nat.toDigits 10 n).head? ≠ some '0' :=
    head?_toDigits_of_length
  simpa [number, hdigits, hwhole, fraction_of_endsNumber hrest, exponent_of_endsNumber hrest,
    Text.decimalNumber_toDigits] using hzero

theorem toList_toString_int (n : Int) : (toString n).toList =
    if 0 ≤ n then Nat.toDigits 10 n.natAbs else '-' :: Nat.toDigits 10 n.natAbs := by
  rw [Int.toString_eq_repr, Int.repr_eq_if]
  split
  · next h =>
    have hn : n.toNat = n.natAbs := by omega
    rw [Nat.repr_eq_ofList_toDigits, String.toList_ofList, hn]
  · next h =>
    have hn : (-n).toNat = n.natAbs := by omega
    rw [String.toList_append, Nat.repr_eq_ofList_toDigits, String.toList_ofList, hn]
    simp

private theorem scalar_of_isDigit {c : Char} (h : Text.isDigit c = true) (cs : List Char) :
    scalar (c :: cs) = number false (c :: cs) := by
  unfold scalar
  split
  case h_8 => rfl
  all_goals
    next heq =>
    cases heq
    exact absurd h (by decide)

private theorem scalar_minus {c : Char} (h : Text.isDigit c = true) (cs : List Char) :
    scalar ('-' :: c :: cs) = number true (c :: cs) := by
  have hc : c ≠ 'I' := by
    rintro rfl
    exact absurd h (by decide)
  simp [scalar, hc]

private theorem scalar_int {n : Int} {rest : List Char} (hsize : (toString n).length ≤ maxWhole)
    (hrest : EndsNumber rest) : scalar ((toString n).toList ++ rest) = some (.int n, rest) := by
  obtain ⟨d, ds, hdigits⟩ := List.exists_cons_of_ne_nil
    (show Nat.toDigits 10 n.natAbs ≠ [] from Nat.toDigits_ne_nil)
  have hd : Text.isDigit d = true := Text.isDigit_of_mem_toDigits (hdigits ▸ List.mem_cons_self)
  rw [← String.length_toList, toList_toString_int] at hsize
  rw [toList_toString_int]
  by_cases hn : 0 ≤ n
  · have hnumber : number false (Nat.toDigits 10 n.natAbs ++ rest) = some (.int n.natAbs, rest) :=
      number_toDigits (by simpa [hn] using hsize) hrest
    rw [if_pos hn]
    rw [hdigits, List.cons_append] at hnumber ⊢
    rw [scalar_of_isDigit hd, hnumber, Int.natAbs_of_nonneg hn]
  · have hnumber : number true (Nat.toDigits 10 n.natAbs ++ rest) =
        some (.int (-n.natAbs), rest) := number_toDigits (by simpa [hn] using hsize) hrest
    have habs : -(n.natAbs : Int) = n := by omega
    rw [if_neg hn]
    rw [hdigits, List.cons_append] at hnumber
    rw [hdigits, List.cons_append, List.cons_append, scalar_minus hd, hnumber, habs]

/-! ## White space -/

theorem skipSpace_append {blanks : List Char} (h : ∀ c ∈ blanks, isSpace c = true)
    (cs : List Char) : skipSpace (blanks ++ cs) = skipSpace cs :=
  List.dropWhile_append_of_pos h

theorem skipSpace_cons {c : Char} (h : isSpace c = false) (cs : List Char) :
    skipSpace (c :: cs) = c :: cs := by
  simp [skipSpace, h]

theorem skipSpace_skipSpace (cs : List Char) : skipSpace (skipSpace cs) = skipSpace cs :=
  List.dropWhile_idempotent isSpace cs

theorem value_skipSpace (fuel depth : Nat) (cs : List Char) :
    value fuel depth (skipSpace cs) = value fuel depth cs := by
  cases fuel with
  | zero => rfl
  | succ fuel => rw [value, value, skipSpace_skipSpace]

private theorem items_skipSpace (fuel depth : Nat) (cs : List Char) :
    items fuel depth (skipSpace cs) = items fuel depth cs := by
  cases fuel with
  | zero => rfl
  | succ fuel => rw [items, items, value_skipSpace]

private theorem entries_skipSpace (fuel depth : Nat) (cs : List Char) :
    entries fuel depth (skipSpace cs) = entries fuel depth cs := by
  cases fuel with
  | zero => rfl
  | succ fuel => rw [entries, entries, skipSpace_skipSpace]

theorem value_append {blanks : List Char} (h : ∀ c ∈ blanks, isSpace c = true) (fuel depth : Nat)
    (cs : List Char) : value fuel depth (blanks ++ cs) = value fuel depth cs := by
  rw [← value_skipSpace, skipSpace_append h, value_skipSpace]

theorem endsNumber_cons {c : Char}
    (h : Text.isDigit c = false ∧ c ≠ '.' ∧ c ≠ 'e' ∧ c ≠ 'E') (rest : List Char) :
    EndsNumber (c :: rest) := by
  rintro _ ⟨⟩
  exact h

theorem endsNumber_append {blanks : List Char} (h : ∀ c ∈ blanks, isSpace c = true)
    {rest : List Char} (hrest : EndsNumber rest) : EndsNumber (blanks ++ rest) := by
  cases blanks with
  | nil => exact hrest
  | cons b blanks =>
    rintro c ⟨⟩
    have hb : b = ' ' ∨ b = '\n' ∨ b = '\t' ∨ b = '\r' := by
      simpa [isSpace, or_assoc] using h b List.mem_cons_self
    rcases hb with rfl | rfl | rfl | rfl
    all_goals decide

/-! ## Values -/

/-- Whether a character may begin a value that is no string, list or mapping. -/
def BeginsScalar (c : Char) : Prop :=
  isSpace c = false ∧ c ≠ '"' ∧ c ≠ '[' ∧ c ≠ '\x7b' ∧ c ≠ ']'

instance (c : Char) : Decidable (BeginsScalar c) := inferInstanceAs (Decidable (_ ∧ _))

private theorem beginsScalar_of_isDigit {c : Char} (h : Text.isDigit c = true) :
    BeginsScalar c := by
  have hne : ∀ {c' : Char}, Text.isDigit c' = false → c ≠ c' := by
    rintro c' hc' rfl
    exact absurd (h.symm.trans hc') (by decide)
  refine ⟨?_, hne (by decide), hne (by decide), hne (by decide), hne (by decide)⟩
  simp [isSpace, hne (show Text.isDigit ' ' = false by decide),
    hne (show Text.isDigit '\n' = false by decide), hne (show Text.isDigit '\t' = false by decide),
    hne (show Text.isDigit '\r' = false by decide)]

theorem beginsScalar_int (n : Int) :
    ∃ c cs, (toString n).toList = c :: cs ∧ BeginsScalar c := by
  obtain ⟨d, ds, hdigits⟩ := List.exists_cons_of_ne_nil
    (show Nat.toDigits 10 n.natAbs ≠ [] from Nat.toDigits_ne_nil)
  have hd : Text.isDigit d = true := Text.isDigit_of_mem_toDigits (hdigits ▸ List.mem_cons_self)
  rw [toList_toString_int]
  split
  · exact ⟨d, ds, hdigits, beginsScalar_of_isDigit hd⟩
  · exact ⟨'-', _, rfl, by decide⟩

private theorem value_scalar {c : Char} (h : BeginsScalar c) (fuel depth : Nat) (cs : List Char) :
    value (fuel + 1) depth (c :: cs) = scalar (c :: cs) := by
  obtain ⟨hspace, hquote, hbracket, hbrace, -⟩ := h
  simp [value, skipSpace_cons hspace, hquote, hbracket, hbrace]

private theorem value_list {fuel depth : Nat} {cs tail : List Char} {c : Char}
    (hskip : skipSpace cs = c :: tail) (hc : c ≠ ']') :
    value (fuel + 1) (depth + 1) ('[' :: cs) =
      (items fuel depth cs).map fun (ds, after) => (.list ds, after) := by
  rw [value, skipSpace_cons (by decide), ← items_skipSpace fuel depth cs]
  simp only [hskip]
  split
  · next heq =>
    cases heq
    contradiction
  · rfl

private theorem value_map {fuel depth : Nat} {cs tail : List Char} {c : Char}
    (hskip : skipSpace cs = c :: tail) (hc : c ≠ '\x7d') :
    value (fuel + 1) (depth + 1) ('\x7b' :: cs) =
      (entries fuel depth cs).map fun (ds, after) => (.map ds, after) := by
  rw [value, skipSpace_cons (by decide), ← entries_skipSpace fuel depth cs]
  simp only [hskip]
  split
  · next heq =>
    cases heq
    contradiction
  · rfl

private theorem items_last {fuel depth : Nat} {cs rest after : List Char} {d : Data}
    (hvalue : value fuel depth cs = some (d, rest)) (hskip : skipSpace rest = ']' :: after) :
    items (fuel + 1) depth cs = some ([d], after) := by
  simp [items, hvalue, hskip]

private theorem items_more {fuel depth : Nat} {cs rest more : List Char} {d : Data}
    (hvalue : value fuel depth cs = some (d, rest)) (hskip : skipSpace rest = ',' :: more) :
    items (fuel + 1) depth cs =
      (items fuel depth more).map fun (ds, after) => (d :: ds, after) := by
  simp [items, hvalue, hskip]

private theorem entries_last {fuel depth : Nat} {cs rest after more : List Char} {key : String}
    {d : Data} (hkey : skipSpace cs = (string key).toList ++ ':' :: rest)
    (hvalue : value fuel depth rest = some (d, after)) (hskip : skipSpace after = '\x7d' :: more) :
    entries (fuel + 1) depth cs = some ([(key, d)], more) := by
  obtain ⟨body, hbody, hstring⟩ := stringRest_string key (':' :: rest)
  have hcolon : skipSpace (':' :: rest) = ':' :: rest := skipSpace_cons (by decide) rest
  simp [entries, hkey, hbody, hstring, hcolon, hvalue, hskip]

private theorem entries_more {fuel depth : Nat} {cs rest after more : List Char} {key : String}
    {d : Data} (hkey : skipSpace cs = (string key).toList ++ ':' :: rest)
    (hvalue : value fuel depth rest = some (d, after)) (hskip : skipSpace after = ',' :: more) :
    entries (fuel + 1) depth cs =
      (entries fuel depth more).map fun (ds, after) => ((key, d) :: ds, after) := by
  obtain ⟨body, hbody, hstring⟩ := stringRest_string key (':' :: rest)
  have hcolon : skipSpace (':' :: rest) = ':' :: rest := skipSpace_cons (by decide) rest
  simp [entries, hkey, hbody, hstring, hcolon, hvalue, hskip]

/-- A layout puts only white space between the parts of a text. -/
structure Layout.IsBlank (layout : Layout) : Prop where
  lineBreak : ∀ level, ∀ c ∈ (layout.lineBreak level).toList, isSpace c = true
  colon : ∃ blanks, layout.colon.toList = ':' :: blanks ∧ ∀ c ∈ blanks, isSpace c = true

theorem isBlank_indented : Layout.indented.IsBlank where
  lineBreak level := by
    intro c hc
    simp [Layout.indented] at hc
    rcases hc with rfl | ⟨-, rfl⟩
    all_goals decide
  colon := ⟨[' '], rfl, by simp [isSpace]⟩

/-- A document that keeps within the limits of the reader, with a number of levels left. -/
def Readable (depth : Nat) (d : Doc) : Prop :=
  d.Conforms (fun n => (toString n).length ≤ maxWhole) (fun _ => True) depth

variable {layout : Layout} {depth : Nat}

/-- A document is read back from its text, with what follows it. The fuel is counted by the length
of the text: every value has a character, and every item after the first has a comma. -/
def ReadBack (layout : Layout) (depth : Nat) (d : Doc) : Prop :=
  ∀ level fuel rest, 2 * (render layout level d).toList.length ≤ fuel → EndsNumber rest →
    value fuel depth ((render layout level d).toList ++ rest) = some (d.toData, rest)

theorem toList_renderItems_cons (level : Nat) (d next : Doc) (ds : List Doc) :
    (renderItems layout level (d :: next :: ds)).toList =
      (layout.lineBreak level).toList ++ ((render layout level d).toList ++
        ',' :: (renderItems layout level (next :: ds)).toList) := by
  simp [renderItems]

theorem toList_renderEntries_cons (level : Nat) (k : String) (d : Doc) (next : String × Doc)
    (es : List (String × Doc)) :
    (renderEntries layout level ((k, d) :: next :: es)).toList =
      (layout.lineBreak level).toList ++ ((string k).toList ++ (layout.colon.toList ++
        ((render layout level d).toList ++
          ',' :: (renderEntries layout level (next :: es)).toList))) := by
  simp [renderEntries]

theorem toList_renderEntries_singleton (level : Nat) (k : String) (d : Doc) :
    (renderEntries layout level [(k, d)]).toList =
      (layout.lineBreak level).toList ++ ((string k).toList ++ (layout.colon.toList ++
        (render layout level d).toList)) := by
  simp [renderEntries]

private theorem items_renderItems (hlayout : layout.IsBlank) {d : Doc} {ds : List Doc}
    (h : ∀ d' ∈ d :: ds, ReadBack layout depth d') {level fuel : Nat} {blanks : List Char}
    (hblanks : ∀ c ∈ blanks, isSpace c = true) (rest : List Char)
    (hfuel : 2 * (renderItems layout level (d :: ds)).toList.length + 1 ≤ fuel) :
    items fuel depth ((renderItems layout level (d :: ds)).toList ++ (blanks ++ ']' :: rest)) =
      some (Doc.toDataItems (d :: ds), rest) := by
  induction ds generalizing d fuel with
  | nil =>
    obtain ⟨fuel, rfl⟩ := Nat.exists_eq_add_of_le' (Nat.le_of_add_left_le hfuel)
    rw [renderItems, String.toList_append] at hfuel ⊢
    rw [List.length_append] at hfuel
    have hends : EndsNumber (blanks ++ ']' :: rest) :=
      endsNumber_append hblanks (endsNumber_cons (by decide) rest)
    have hvalue := h d List.mem_cons_self level fuel _ (by omega) hends
    rw [← value_append (hlayout.lineBreak level), ← List.append_assoc] at hvalue
    apply items_last hvalue
    rw [skipSpace_append hblanks, skipSpace_cons (by decide)]
  | cons next ds ih =>
    obtain ⟨fuel, rfl⟩ := Nat.exists_eq_add_of_le' (Nat.le_of_add_left_le hfuel)
    rw [toList_renderItems_cons] at hfuel ⊢
    simp only [List.length_append, List.length_cons] at hfuel
    have hvalue := h d List.mem_cons_self level fuel
      (',' :: ((renderItems layout level (next :: ds)).toList ++ (blanks ++ ']' :: rest)))
      (by omega) (endsNumber_cons (by decide) _)
    rw [← value_append (hlayout.lineBreak level)] at hvalue
    have hfuel' : 2 * (renderItems layout level (next :: ds)).toList.length + 1 ≤ fuel := by omega
    have hmore := ih (fun d' hd' => h d' (List.mem_cons_of_mem d hd')) hfuel'
    simp only [List.append_assoc, List.cons_append]
    rw [items_more hvalue (skipSpace_cons (by decide) _), hmore]
    rfl

private theorem entries_renderEntries (hlayout : layout.IsBlank) {e : String × Doc}
    {es : List (String × Doc)} (h : ∀ e' ∈ e :: es, ReadBack layout depth e'.2) {level fuel : Nat}
    {blanks : List Char} (hblanks : ∀ c ∈ blanks, isSpace c = true) (rest : List Char)
    (hfuel : 2 * (renderEntries layout level (e :: es)).toList.length + 1 ≤ fuel) :
    entries fuel depth
        ((renderEntries layout level (e :: es)).toList ++ (blanks ++ '\x7d' :: rest)) =
      some (Doc.toDataEntries (e :: es), rest) := by
  obtain ⟨colon, hcolon, hspaces⟩ := hlayout.colon
  have hkey : ∀ (k : String) (rest : List Char),
      skipSpace
        ((layout.lineBreak level).toList ++ ((string k).toList ++ (':' :: (colon ++ rest)))) =
        (string k).toList ++ ':' :: (colon ++ rest) := by
    intro k rest
    rw [skipSpace_append (hlayout.lineBreak level), toList_string, List.cons_append,
      skipSpace_cons (by decide)]
  induction es generalizing e fuel with
  | nil =>
    obtain ⟨k, d⟩ := e
    obtain ⟨fuel, rfl⟩ := Nat.exists_eq_add_of_le' (Nat.le_of_add_left_le hfuel)
    rw [toList_renderEntries_singleton, hcolon] at hfuel ⊢
    simp only [List.length_append, List.length_cons] at hfuel
    have hends : EndsNumber (blanks ++ '\x7d' :: rest) :=
      endsNumber_append hblanks (endsNumber_cons (by decide) rest)
    have hread : ReadBack layout depth d := h (k, d) List.mem_cons_self
    have hvalue := hread level fuel _ (by omega) hends
    rw [← value_append hspaces] at hvalue
    simp only [List.append_assoc, List.cons_append]
    apply entries_last (hkey k _) hvalue
    rw [skipSpace_append hblanks, skipSpace_cons (by decide)]
  | cons next es ih =>
    obtain ⟨k, d⟩ := e
    obtain ⟨fuel, rfl⟩ := Nat.exists_eq_add_of_le' (Nat.le_of_add_left_le hfuel)
    rw [toList_renderEntries_cons, hcolon] at hfuel ⊢
    simp only [List.length_append, List.length_cons] at hfuel
    have hread : ReadBack layout depth d := h (k, d) List.mem_cons_self
    have hvalue := hread level fuel
      (',' :: ((renderEntries layout level (next :: es)).toList ++ (blanks ++ '\x7d' :: rest)))
      (by omega) (endsNumber_cons (by decide) _)
    rw [← value_append hspaces] at hvalue
    have hfuel' : 2 * (renderEntries layout level (next :: es)).toList.length + 1 ≤ fuel := by
      omega
    have hmore := ih (fun e' he' => h e' (List.mem_cons_of_mem _ he')) hfuel'
    simp only [List.append_assoc, List.cons_append]
    rw [entries_more (hkey k _) hvalue (skipSpace_cons (by decide) _), hmore]
    rfl

private theorem render_head (layout : Layout) (level : Nat) (d : Doc) :
    ∃ c cs, (render layout level d).toList = c :: cs ∧ isSpace c = false ∧ c ≠ ']' := by
  cases d with
  | null => exact ⟨'n', _, by rw [render]; rfl, by decide, by decide⟩
  | bool b =>
    cases b with
    | true => exact ⟨'t', _, by rw [render]; rfl, by decide, by decide⟩
    | false => exact ⟨'f', _, by rw [render]; rfl, by decide, by decide⟩
  | int n =>
    obtain ⟨c, cs, hcs, hc⟩ := beginsScalar_int n
    exact ⟨c, cs, by rw [render]; exact hcs, hc.1, hc.2.2.2.2⟩
  | text s => exact ⟨'"', _, by rw [render]; exact toList_string s, by decide, by decide⟩
  | list ds =>
    cases ds with
    | nil => exact ⟨'[', _, by rw [render]; rfl, by decide, by decide⟩
    | cons d ds => exact ⟨'[', _, by simp [render]; rfl, by decide, by decide⟩
  | map es =>
    cases es with
    | nil => exact ⟨'\x7b', _, by rw [render]; rfl, by decide, by decide⟩
    | cons e es => exact ⟨'\x7b', _, by simp [render]; rfl, by decide, by decide⟩

private theorem skipSpace_renderItems (hlayout : layout.IsBlank) (level : Nat) (d : Doc)
    (ds : List Doc) (rest : List Char) :
    ∃ c cs, skipSpace ((renderItems layout level (d :: ds)).toList ++ rest) = c :: cs ∧
      c ≠ ']' := by
  obtain ⟨c, cs, hcs, hspace, hc⟩ := render_head layout level d
  obtain ⟨more, hmore⟩ : ∃ more, (renderItems layout level (d :: ds)).toList =
      (layout.lineBreak level).toList ++ ((render layout level d).toList ++ more) := by
    cases ds with
    | nil => exact ⟨[], by simp [renderItems]⟩
    | cons next ds => exact ⟨_, toList_renderItems_cons level d next ds⟩
  refine ⟨c, cs ++ (more ++ rest), ?_, hc⟩
  rw [hmore, hcs, List.append_assoc, skipSpace_append (hlayout.lineBreak level)]
  simp [skipSpace_cons hspace]

private theorem skipSpace_renderEntries (hlayout : layout.IsBlank) (level : Nat) (e : String × Doc)
    (es : List (String × Doc)) (rest : List Char) :
    ∃ cs, skipSpace ((renderEntries layout level (e :: es)).toList ++ rest) = '"' :: cs := by
  obtain ⟨k, d⟩ := e
  obtain ⟨more, hmore⟩ : ∃ more, (renderEntries layout level ((k, d) :: es)).toList =
      (layout.lineBreak level).toList ++ ((string k).toList ++ more) := by
    cases es with
    | nil => exact ⟨_, toList_renderEntries_singleton level k d⟩
    | cons next es => exact ⟨_, toList_renderEntries_cons level k d next es⟩
  rw [hmore, toList_string, List.append_assoc, skipSpace_append (hlayout.lineBreak level),
    List.cons_append, List.cons_append, skipSpace_cons (by decide)]
  exact ⟨_, rfl⟩

theorem readBack_of_scalar {d : Doc} {text : String}
    (hrender : ∀ level, render layout level d = text)
    (hhead : ∃ c cs, text.toList = c :: cs ∧ BeginsScalar c)
    (hscalar : ∀ rest, EndsNumber rest → scalar (text.toList ++ rest) = some (d.toData, rest)) :
    ReadBack layout depth d := by
  intro level fuel rest hfuel hrest
  obtain ⟨c, cs, hcs, hc⟩ := hhead
  have hread := hscalar rest hrest
  rw [hrender, hcs, List.length_cons] at hfuel
  obtain ⟨fuel, rfl⟩ := Nat.exists_eq_add_of_le' (show 1 ≤ fuel by omega)
  rw [hcs, List.cons_append] at hread
  rw [hrender, hcs, List.cons_append, value_scalar hc, hread]

private theorem readBack_text (s : String) : ReadBack layout depth (.text s) := by
  intro level fuel rest hfuel _
  obtain ⟨body, hbody, hstring⟩ := stringRest_string s rest
  rw [render, toList_string, List.length_cons] at hfuel
  obtain ⟨fuel, rfl⟩ := Nat.exists_eq_add_of_le' (show 1 ≤ fuel by omega)
  rw [render, hbody, value, skipSpace_cons (by decide)]
  simp only [hstring]
  rfl

private theorem readBack_list (hlayout : layout.IsBlank) {ds : List Doc}
    (h : ∀ d ∈ ds, ReadBack layout depth d) : ReadBack layout (depth + 1) (.list ds) := by
  intro level fuel rest hfuel _
  cases ds with
  | nil =>
    have htext : (render layout level (.list [])).toList = ['[', ']'] := by
      rw [render]
      rfl
    rw [htext, List.length_cons] at hfuel
    obtain ⟨fuel, rfl⟩ := Nat.exists_eq_add_of_le' (show 1 ≤ fuel by omega)
    rw [htext]
    rfl
  | cons d ds =>
    have htext : (render layout level (.list (d :: ds))).toList =
        '[' :: ((renderItems layout (level + 1) (d :: ds)).toList ++
          ((layout.lineBreak level).toList ++ [']'])) := by
      simp [render]
    rw [htext] at hfuel ⊢
    simp only [List.length_append, List.length_cons] at hfuel
    obtain ⟨fuel, rfl⟩ := Nat.exists_eq_add_of_le' (show 1 ≤ fuel by omega)
    have hfuel' : 2 * (renderItems layout (level + 1) (d :: ds)).toList.length + 1 ≤ fuel := by
      omega
    have hitems := items_renderItems hlayout h (hlayout.lineBreak level) rest hfuel'
    obtain ⟨c, cs, hskip, hc⟩ := skipSpace_renderItems hlayout (level + 1) d ds
      ((layout.lineBreak level).toList ++ ']' :: rest)
    simp only [List.cons_append, List.append_assoc, List.nil_append]
    rw [value_list hskip hc, hitems]
    rfl

private theorem readBack_map (hlayout : layout.IsBlank) {es : List (String × Doc)}
    (h : ∀ e ∈ es, ReadBack layout depth e.2) : ReadBack layout (depth + 1) (.map es) := by
  intro level fuel rest hfuel _
  cases es with
  | nil =>
    have htext : (render layout level (.map [])).toList = ['\x7b', '\x7d'] := by
      rw [render]
      rfl
    rw [htext, List.length_cons] at hfuel
    obtain ⟨fuel, rfl⟩ := Nat.exists_eq_add_of_le' (show 1 ≤ fuel by omega)
    rw [htext]
    rfl
  | cons e es =>
    have htext : (render layout level (.map (e :: es))).toList =
        '\x7b' :: ((renderEntries layout (level + 1) (e :: es)).toList ++
          ((layout.lineBreak level).toList ++ ['\x7d'])) := by
      simp [render]
    rw [htext] at hfuel ⊢
    simp only [List.length_append, List.length_cons] at hfuel
    obtain ⟨fuel, rfl⟩ := Nat.exists_eq_add_of_le' (show 1 ≤ fuel by omega)
    have hfuel' : 2 * (renderEntries layout (level + 1) (e :: es)).toList.length + 1 ≤ fuel := by
      omega
    have hentries := entries_renderEntries hlayout h (hlayout.lineBreak level) rest hfuel'
    obtain ⟨cs, hskip⟩ := skipSpace_renderEntries hlayout (level + 1) e es
      ((layout.lineBreak level).toList ++ '\x7d' :: rest)
    simp only [List.cons_append, List.append_assoc, List.nil_append]
    rw [value_map hskip (by decide), hentries]
    rfl

/-- A document within the limits is read back. -/
theorem readBack_of_readable (hlayout : layout.IsBlank) {d : Doc} (h : Readable depth d) :
    ReadBack layout depth d := by
  induction h with
  | null =>
    exact readBack_of_scalar (fun _ => by rw [render]) ⟨'n', _, rfl, by decide⟩ fun _ _ => rfl
  | bool b =>
    cases b with
    | true =>
      exact readBack_of_scalar (fun _ => by rw [render]) ⟨'t', _, rfl, by decide⟩ fun _ _ => rfl
    | false =>
      exact readBack_of_scalar (fun _ => by rw [render]) ⟨'f', _, rfl, by decide⟩ fun _ _ => rfl
  | int hsize =>
    exact readBack_of_scalar (fun _ => by rw [render]) (beginsScalar_int _)
      fun _ hrest => scalar_int hsize hrest
  | text s => exact readBack_text s
  | list _ ih => exact readBack_list hlayout ih
  | map _ _ ih => exact readBack_map hlayout ih

/-- What is written as JSON is read back. -/
theorem read_render (hlayout : layout.IsBlank) {d : Doc} (h : Readable maxDepth d) :
    read (render layout 0 d) = some d.toData := by
  have hvalue := readBack_of_readable hlayout h 0 (2 * (render layout 0 d).toList.length + 2) []
    (by omega) (by simp [EndsNumber])
  rw [List.append_nil] at hvalue
  simp only [read, hvalue, Option.bind_eq_bind, Option.bind_some]
  rfl

end EndpointAudit.Json
