import EndpointAudit.Text.Split
import Mathlib.Data.List.Infix

/-!
# Splitting and joining

Splitting a text at a character and joining the parts are inverse to each other, and so are
replacing a character and replacing it back. What begins or ends a text without a separator lies in
the first or the last part.
-/

namespace EndpointAudit.Text

theorem startsWith_iff (text start : String) :
    startsWith text start = true ↔ start.toList <+: text.toList :=
  List.isPrefixOf_iff_prefix

theorem startsWith_append (start rest : String) : startsWith (start ++ rest) start = true := by
  rw [startsWith_iff, String.toList_append]
  exact List.prefix_append _ _

theorem exists_of_startsWith {text start : String} (h : startsWith text start = true) :
    ∃ rest, text = start ++ rest := by
  obtain ⟨cs, hcs⟩ := (startsWith_iff text start).mp h
  refine ⟨String.ofList cs, ?_⟩
  rw [← String.toList_inj, String.toList_append, String.toList_ofList, hcs]

theorem endsWith_iff (text ending : String) :
    endsWith text ending = true ↔ ending.toList <:+ text.toList :=
  List.isSuffixOf_iff_suffix

/-! ## Parts -/

theorem splitAtChar_eq_splitOn (sep : Char) (cs : List Char) :
    splitAtChar sep cs = cs.splitOn sep := by
  induction cs with
  | nil => rfl
  | cons c cs ih =>
    have hcons : (c :: cs).splitOn sep = if c = sep then [] :: cs.splitOn sep
        else (cs.splitOn sep).modifyHead (c :: ·) := by
      simp [List.splitOn, List.splitOnP_cons_eq_if_modifyHead]
    rw [splitAtChar, ih, hcons]
    cases hsplit : cs.splitOn sep with
    | nil => exact absurd hsplit (List.splitOnP_ne_nil _ cs)
    | cons part parts => rfl

theorem toList_join {sep : String} {c : Char} (hsep : sep.toList = [c]) (parts : List String) :
    (join sep parts).toList = [c].intercalate (parts.map String.toList) := by
  rw [join, String.toList_intercalate, hsep]

theorem join_splitOn {sep : String} {c : Char} (hsep : sep.toList = [c]) (text : String) :
    join sep (splitOn c text) = text := by
  have hparts : (splitOn c text).map String.toList = text.toList.splitOn c := by
    simp [splitOn, splitAtChar_eq_splitOn]
  rw [← String.toList_inj, toList_join hsep, hparts, List.intercalate_splitOn]

theorem splitOn_join {sep : String} {c : Char} (hsep : sep.toList = [c]) {parts : List String}
    (hne : parts ≠ []) (h : ∀ part ∈ parts, c ∉ part.toList) :
    splitOn c (join sep parts) = parts := by
  have hsplit : (join sep parts).toList.splitOn c = parts.map String.toList := by
    rw [toList_join hsep]
    exact List.splitOn_intercalate c (by simpa using h) (by simpa using hne)
  rw [splitOn, splitAtChar_eq_splitOn, hsplit, List.map_map]
  simp

theorem exists_splitAtChar_eq_cons (sep : Char) (cs : List Char) :
    ∃ part parts, splitAtChar sep cs = part :: parts := by
  rw [splitAtChar_eq_splitOn]
  exact List.exists_cons_of_ne_nil (List.splitOnP_ne_nil _ cs)

theorem splitAtChar_cons_self (sep : Char) (cs : List Char) :
    splitAtChar sep (sep :: cs) = [] :: splitAtChar sep cs := by
  rw [splitAtChar, if_pos rfl]

theorem splitAtChar_cons_of_ne {sep c : Char} {cs part : List Char} {parts : List (List Char)}
    (hc : c ≠ sep) (h : splitAtChar sep cs = part :: parts) :
    splitAtChar sep (c :: cs) = (c :: part) :: parts := by
  rw [splitAtChar, if_neg hc, h]

theorem sep_not_mem_of_mem_splitAtChar {sep : Char} {cs part : List Char}
    (h : part ∈ splitAtChar sep cs) : sep ∉ part := by
  induction cs generalizing part with
  | nil => simp [List.mem_singleton.mp h]
  | cons c cs ih =>
    by_cases hc : c = sep
    · rw [hc, splitAtChar_cons_self] at h
      rcases List.mem_cons.mp h with rfl | hrest
      · simp
      · exact ih hrest
    · obtain ⟨first, parts, hsplit⟩ := exists_splitAtChar_eq_cons sep cs
      rw [splitAtChar_cons_of_ne hc hsplit] at h
      rw [hsplit] at ih
      rcases List.mem_cons.mp h with rfl | hrest
      · simpa [Ne.symm hc] using ih (by simp)
      · exact ih (List.mem_cons_of_mem _ hrest)

theorem mem_of_mem_splitAtChar {sep c : Char} {cs part : List Char}
    (h : part ∈ splitAtChar sep cs) (hc : c ∈ part) : c ∈ cs := by
  induction cs generalizing part with
  | nil =>
    rw [List.mem_singleton.mp h] at hc
    exact hc
  | cons c' cs ih =>
    rw [splitAtChar] at h
    rw [List.mem_cons]
    by_cases hsep : c' = sep
    · rw [if_pos hsep] at h
      rcases List.mem_cons.mp h with rfl | hrest
      · simp at hc
      · exact .inr (ih hrest hc)
    · rw [if_neg hsep] at h
      cases hsplit : splitAtChar sep cs with
      | nil =>
        rw [hsplit] at h
        simp only [List.mem_singleton.mp h, List.mem_singleton] at hc
        exact .inl hc
      | cons first parts =>
        rw [hsplit] at h ih
        rcases List.mem_cons.mp h with rfl | hrest
        · exact (List.mem_cons.mp hc).imp_right (ih (by simp))
        · exact .inr (ih (List.mem_cons_of_mem _ hrest) hc)

theorem flatten_splitAtChar (sep : Char) (cs : List Char) :
    (splitAtChar sep cs).flatten = cs.filter (· ≠ sep) := by
  induction cs with
  | nil => rfl
  | cons c cs ih =>
    by_cases hc : c = sep
    · rw [hc, splitAtChar_cons_self, List.flatten_cons, ih]
      simp
    · obtain ⟨part, parts, hsplit⟩ := exists_splitAtChar_eq_cons sep cs
      rw [splitAtChar_cons_of_ne hc hsplit, List.filter_cons_of_pos (by simpa using hc), ← ih,
        hsplit]
      simp

/-- A text that begins or ends with a separator has an empty part. -/
theorem empty_mem_splitOn {sep : Char} {text : String} {before behind : List Char}
    (htext : text.toList = before ++ sep :: behind) (h : before = [] ∨ behind = []) :
    "" ∈ splitOn sep text := by
  have hsplit : splitAtChar sep text.toList = splitAtChar sep before ++ splitAtChar sep behind := by
    simp only [splitAtChar_eq_splitOn, htext, List.splitOn]
    exact List.splitOnP_append_cons _ _ (by simp)
  refine List.mem_map.mpr ⟨[], ?_, rfl⟩
  rw [hsplit, List.mem_append]
  rcases h with rfl | rfl
  · exact .inl (by simp [splitAtChar])
  · exact .inr (by simp [splitAtChar])

theorem splitAtChar_of_not_mem {sep : Char} {cs : List Char} (h : sep ∉ cs) :
    splitAtChar sep cs = [cs] := by
  induction cs with
  | nil => rfl
  | cons c cs ih =>
    rw [List.mem_cons, not_or] at h
    rw [splitAtChar, ih h.2, if_neg (Ne.symm h.1)]

/-- The parts of a text with an addition that holds no separator: only the last part grows. -/
theorem exists_splitAtChar_append (sep : Char) (cs : List Char) {more : List Char}
    (hmore : sep ∉ more) : ∃ parts last, splitAtChar sep cs = parts ++ [last] ∧
      splitAtChar sep (cs ++ more) = parts ++ [last ++ more] := by
  induction cs with
  | nil => exact ⟨[], [], rfl, splitAtChar_of_not_mem hmore⟩
  | cons c cs ih =>
    obtain ⟨parts, last, hcs, happend⟩ := ih
    rw [List.cons_append, splitAtChar, splitAtChar, hcs, happend]
    by_cases hc : c = sep
    · exact ⟨[] :: parts, last, by simp [hc], by simp [hc]⟩
    · cases parts with
      | nil => exact ⟨[], c :: last, by simp [hc], by simp [hc]⟩
      | cons part parts => exact ⟨(c :: part) :: parts, last, by simp [hc], by simp [hc]⟩

/-! ## Beginnings and endings -/

theorem prefix_of_prefix_append_cons {start before behind : List Char} {c : Char} (hc : c ∉ start)
    (h : start <+: before ++ c :: behind) : start <+: before := by
  rcases List.prefix_or_prefix_of_prefix h (List.prefix_append before _) with hstart | hbefore
  · exact hstart
  · obtain ⟨more, rfl⟩ := hbefore
    cases more with
    | nil => rw [List.append_nil]
    | cons c' more =>
      rw [List.prefix_append_right_inj, List.cons_prefix_cons] at h
      simp [h.1] at hc

private theorem suffix_of_suffix_append_cons {ending before behind : List Char} {c : Char}
    (hc : c ∉ ending) (h : ending <:+ before ++ c :: behind) : ending <:+ behind := by
  have hreverse : ending.reverse <+: behind.reverse ++ c :: before.reverse := by
    simpa using List.reverse_prefix.mpr h
  exact List.reverse_prefix.mp (prefix_of_prefix_append_cons (by simpa using hc) hreverse)

/-- An ending without a separator is an ending of the last part. -/
theorem endsWith_getLastD_of_join {sep : String} {c : Char} (hsep : sep.toList = [c])
    {parts : List String} {ending : String} (hc : c ∉ ending.toList)
    (h : endsWith (join sep parts) ending = true) :
    endsWith (parts.getLastD "") ending = true := by
  induction parts with
  | nil => exact h
  | cons part parts ih =>
    cases parts with
    | nil => simpa [join] using h
    | cons next parts =>
      apply ih
      rw [endsWith_iff, toList_join hsep] at h ⊢
      rw [List.map_cons, List.map_cons, List.intercalate_cons_cons, List.append_assoc] at h
      exact suffix_of_suffix_append_cons hc h

/-! ## Replacing a character -/

theorem toList_replaceChar (old new : Char) (text : String) :
    (replaceChar old new text).toList = text.toList.map fun c => if c = old then new else c := by
  rw [replaceChar, String.toList_ofList]

theorem replaceChar_replaceChar {old new : Char} {text : String} (h : new ∉ text.toList) :
    replaceChar new old (replaceChar old new text) = text := by
  rw [← String.toList_inj, toList_replaceChar, toList_replaceChar, List.map_map]
  conv_rhs => rw [← List.map_id text.toList]
  apply List.map_congr_left
  intro c hc
  have hne : c ≠ new := fun heq => h (heq ▸ hc)
  by_cases hold : c = old
  · simp [hold]
  · simp [hold, hne]

theorem replaceChar_append (old new : Char) (text more : String) :
    replaceChar old new (text ++ more) = replaceChar old new text ++ replaceChar old new more := by
  simp only [← String.toList_inj, toList_replaceChar, String.toList_append, List.map_append]

theorem not_mem_replaceChar {old new : Char} (hne : old ≠ new) (text : String) :
    old ∉ (replaceChar old new text).toList := by
  rw [toList_replaceChar]
  intro h
  obtain ⟨c, -, hc⟩ := List.mem_map.mp h
  by_cases hold : c = old
  · rw [if_pos hold] at hc
    exact hne hc.symm
  · rw [if_neg hold] at hc
    exact hold hc

/-- Replacing a character keeps beginnings. -/
theorem startsWith_replaceChar {text start : String} (old new : Char)
    (h : startsWith text start = true) :
    startsWith (replaceChar old new text) (replaceChar old new start) = true := by
  rw [startsWith_iff] at h ⊢
  rw [toList_replaceChar, toList_replaceChar]
  exact h.map _

end EndpointAudit.Text
