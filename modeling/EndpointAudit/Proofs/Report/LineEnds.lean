import EndpointAudit.Proofs.Bytes.Utf8
import EndpointAudit.Proofs.Json.RoundTrip
import EndpointAudit.Report.File
import Mathlib.Data.List.SplitBy

/-!
# Line ends of written documents

Reading a file turns every carriage return into a line feed. A document that is written has none,
so that its text is read from a file as it was written. Texts are escaped in both formats; only
the keys in YAML are written as they are.
-/

namespace EndpointAudit

theorem Text.mem_hex {width n : Nat} {c : Char} (h : c ∈ Text.hex width n) :
    ∃ d < 16, c = Text.hexDigit d := by
  induction width generalizing n with
  | zero => simp [Text.hex] at h
  | succ width ih =>
    rw [Text.hex, List.mem_append, List.mem_singleton] at h
    rcases h with h | h
    · exact ih h
    · exact ⟨n % 16, Nat.mod_lt n (by omega), h⟩

private theorem Text.return_not_mem_hex (width n : Nat) : '\r' ∉ Text.hex width n := by
  have hdigits : ∀ d < 16, '\r' ≠ Text.hexDigit d := by decide
  intro h
  obtain ⟨d, hd, heq⟩ := Text.mem_hex h
  exact hdigits d hd heq

private theorem Text.return_not_mem_hexUpper (width n : Nat) : '\r' ∉ Text.hexUpper width n := by
  have hdigits : ∀ d < 16, (Text.hexDigit d).toUpper ≠ '\r' := by decide
  intro h
  obtain ⟨c, hc, heq⟩ := List.mem_map.mp h
  obtain ⟨d, hd, rfl⟩ := Text.mem_hex hc
  exact hdigits d hd heq

theorem return_not_mem_toString (n : Int) : '\r' ∉ (toString n).toList := by
  have hdigits : '\r' ∉ Nat.toDigits 10 n.natAbs := fun h =>
    absurd (Text.isDigit_of_mem_toDigits h) (by decide)
  rw [Json.toList_toString_int]
  split
  · exact hdigits
  · simp [hdigits]

namespace Json

private theorem return_not_mem_escapedChar (c : Char) : '\r' ∉ escapedChar c := by
  unfold escapedChar
  split
  case h_8 hreturn _ =>
    split
    · simp [Text.return_not_mem_hex]
    · rw [List.mem_singleton]
      rintro rfl
      exact hreturn rfl
  all_goals decide

theorem return_not_mem_string (text : String) : '\r' ∉ (string text).toList := by
  simp [toList_string, return_not_mem_escapedChar]

theorem return_not_mem_lineBreak (level : Nat) :
    '\r' ∉ (Layout.indented.lineBreak level).toList := by
  simp [Layout.indented]

mutual

theorem return_not_mem_render (level : Nat) :
    ∀ d : Doc, '\r' ∉ (render .indented level d).toList
  | .null | .bool true | .bool false | .list [] | .map [] => by
    rw [render]
    decide
  | .int n => by
    rw [render]
    exact return_not_mem_toString n
  | .text s => by
    rw [render]
    exact return_not_mem_string s
  | .list (d :: ds) => by
    simp [render, return_not_mem_lineBreak, return_not_mem_renderItems (level + 1) (d :: ds)]
  | .map (e :: es) => by
    simp [render, return_not_mem_lineBreak, return_not_mem_renderEntries (level + 1) (e :: es)]

theorem return_not_mem_renderItems (level : Nat) :
    ∀ ds : List Doc, '\r' ∉ (renderItems .indented level ds).toList
  | [] => by
    rw [renderItems]
    decide
  | [d] => by
    simp [renderItems, return_not_mem_lineBreak, return_not_mem_render level d]
  | d :: next :: ds => by
    simp [renderItems, return_not_mem_lineBreak, return_not_mem_render level d,
      return_not_mem_renderItems level (next :: ds)]

theorem return_not_mem_renderEntries (level : Nat) :
    ∀ es : List (String × Doc), '\r' ∉ (renderEntries .indented level es).toList
  | [] => by
    rw [renderEntries]
    decide
  | [(k, d)] => by
    have hcolon : '\r' ∉ Layout.indented.colon.toList := by decide
    simp [renderEntries, return_not_mem_lineBreak, return_not_mem_string, hcolon,
      return_not_mem_render level d]
  | (k, d) :: next :: es => by
    have hcolon : '\r' ∉ Layout.indented.colon.toList := by decide
    simp [renderEntries, return_not_mem_lineBreak, return_not_mem_string, hcolon,
      return_not_mem_render level d, return_not_mem_renderEntries level (next :: es)]

end

end Json

namespace Yaml

theorem return_not_mem_blanks (n : Nat) : '\r' ∉ blanks n := by simp [blanks]

theorem return_not_mem_of_not_special {cs : List Char} (h : cs.any isSpecial = false) :
    '\r' ∉ cs := by
  intro hmem
  rw [List.any_eq_false] at h
  exact h '\r' hmem (by decide)

theorem return_not_mem_splitBy {cs : List Char} (h : '\r' ∉ cs) (r : Char → Char → Bool) :
    ∀ run ∈ cs.splitBy r, '\r' ∉ run := by
  intro run hrun hmem
  apply h
  rw [← List.flatten_splitBy r cs]
  exact List.mem_flatten.mpr ⟨run, hrun, hmem⟩

theorem Written.return_not_mem_newLine {w : Written} (h : '\r' ∉ w.chars) (indent : Nat) :
    '\r' ∉ (w.newLine indent).chars := by
  simp [Written.newLine, h, return_not_mem_blanks]

theorem Written.return_not_mem_add {w : Written} (h : '\r' ∉ w.chars) {cs : List Char}
    (hcs : '\r' ∉ cs) : '\r' ∉ (w.add cs).chars := by
  simp [Written.add, h, hcs]

private theorem Written.return_not_mem_addBreaks {w : Written} (h : '\r' ∉ w.chars) (indent : Nat)
    {cs : List Char} (hcs : '\r' ∉ cs) : '\r' ∉ (w.addBreaks indent cs).chars := by
  have hbreaks : '\r' ∉ (if cs.head? = some '\n' then '\n' :: cs else cs) := by
    split <;> simp [hcs]
  simp [Written.addBreaks, h, hbreaks, return_not_mem_blanks]

private theorem return_not_mem_writeRuns {runs : List (List Char)}
    (hruns : ∀ run ∈ runs, '\r' ∉ run)
    (indent : Nat) (inside : Bool) {w : Written} (h : '\r' ∉ w.chars) :
    '\r' ∉ (writeRuns indent inside w runs).chars := by
  induction runs generalizing inside w with
  | nil => exact h
  | cons run runs ih =>
    have hrun := hruns run List.mem_cons_self
    have hquotes : '\r' ∉ doubleQuotes run := by
      intro hmem
      obtain ⟨c, hc, hmem⟩ := List.mem_flatMap.mp hmem
      split at hmem
      · simp at hmem
      · rw [List.mem_singleton] at hmem
        exact hrun (hmem ▸ hc)
    apply ih (fun run hrun => hruns run (List.mem_cons_of_mem _ hrun))
    split
    · exact Written.return_not_mem_add h hquotes
    · exact Written.return_not_mem_addBreaks h indent hrun
    · split
      · exact Written.return_not_mem_newLine h indent
      · exact Written.return_not_mem_add h hrun

private theorem return_not_mem_plain {cs : List Char} (h : '\r' ∉ cs) (indent column : Nat) :
    '\r' ∉ plain indent column cs := by
  apply List.foldlRecOn (motive := fun w : Written => '\r' ∉ w.chars)
  · simp
  · intro w hw run hrun
    split
    · exact Written.return_not_mem_newLine hw indent
    · exact Written.return_not_mem_add hw (return_not_mem_splitBy h _ run hrun)

private theorem return_not_mem_escapeOf (c : Char) : '\r' ∉ escapeOf c := by
  unfold escapeOf
  split
  · next letter hletter =>
    have hletters : ∀ p ∈ shortEscapes, '\r' ≠ p.2 := by decide
    obtain ⟨front, back, hsplit, -⟩ := List.lookup_eq_some_iff.mp hletter
    have hmem : (c.toNat, letter) ∈ shortEscapes := by simp [hsplit]
    simp [hletters _ hmem]
  · repeat' split
    all_goals simp [Text.return_not_mem_hexUpper]

theorem Written.return_not_mem_fold {w : Written} (h : '\r' ∉ w.chars) (indent : Nat)
    (next : Option Char) : '\r' ∉ (w.fold indent next).chars := by
  have hline : '\r' ∉ ((w.add ['\\']).newLine indent).chars :=
    return_not_mem_newLine (return_not_mem_add h (by decide)) indent
  rw [Written.fold]
  split
  · exact return_not_mem_add hline (by decide)
  · exact hline

private theorem return_not_mem_writeEscaped (cs : List Char) (indent : Nat) (inside escaped : Bool)
    {w : Written} (h : '\r' ∉ w.chars) :
    '\r' ∉ (writeEscaped indent inside escaped w cs).chars := by
  induction cs generalizing inside escaped w with
  | nil => exact h
  | cons c cs ih =>
    rw [writeEscaped]
    dsimp only
    split
    · next hliteral =>
      have hc : '\r' ∉ [c] := by
        rw [List.mem_singleton]
        rintro rfl
        exact absurd hliteral (by decide)
      apply ih
      apply Written.return_not_mem_add _ hc
      split
      · exact Written.return_not_mem_fold h indent _
      · exact h
    · have hescape := Written.return_not_mem_add h (return_not_mem_escapeOf c)
      apply ih
      split
      · exact Written.return_not_mem_fold hescape indent _
      · exact hescape

private theorem return_not_mem_scalarText (indent column : Nat) (text : String) :
    '\r' ∉ scalarText indent column text := by
  unfold scalarText
  split
  · next hplain =>
    apply return_not_mem_plain
    apply return_not_mem_of_not_special
    simp only [isPlain, Bool.and_eq_true, Bool.not_eq_true'] at hplain
    exact hplain.2
  · split
    · next hquotable =>
      simp only [isSingleQuotable, Bool.and_eq_true, Bool.not_eq_true'] at hquotable
      have hruns := return_not_mem_splitBy (return_not_mem_of_not_special hquotable.1.1)
        fun a b => RunKind.of a == RunKind.of b
      have hwritten := return_not_mem_writeRuns hruns indent false
        (w := { chars := [], column := column + 1 }) (by simp)
      simpa [singleQuoted, runsOf] using hwritten
    · have hwritten := return_not_mem_writeEscaped text.toList indent false false
        (w := { chars := [], column := column + 1 }) (by simp)
      simpa [doubleQuoted] using hwritten

/-- Whether no carriage return is in the text of a value, wherever it stands. -/
def NoReturn (d : Doc) : Prop :=
  ∀ level column inMapping, '\r' ∉ renderValue level column inMapping d

theorem return_not_mem_newLine (indent : Nat) : '\r' ∉ newLine indent := by
  simp [newLine, return_not_mem_blanks]

theorem return_not_mem_renderItems {ds : List Doc} (h : ∀ d ∈ ds, NoReturn d) (level : Nat) :
    '\r' ∉ renderItems level ds := by
  induction ds with
  | nil => simp [renderItems]
  | cons d ds ih =>
    have hd := h d List.mem_cons_self level (level + 1) false
    cases ds with
    | nil => simp [renderItems, hd]
    | cons next ds =>
      have hmore := ih fun d hd => h d (List.mem_cons_of_mem _ hd)
      simp [renderItems, hd, hmore, return_not_mem_newLine]

theorem return_not_mem_renderEntries {es : List (String × Doc)}
    (hkeys : ∀ e ∈ es, '\r' ∉ e.1.toList) (h : ∀ e ∈ es, NoReturn e.2) (level : Nat) :
    '\r' ∉ renderEntries level es := by
  induction es with
  | nil => simp [renderEntries]
  | cons e es ih =>
    obtain ⟨k, d⟩ := e
    have hk : '\r' ∉ k.toList := hkeys (k, d) List.mem_cons_self
    have hd : NoReturn d := h (k, d) List.mem_cons_self
    have hvalue := hd level (level + k.length + 1) true
    cases es with
    | nil => simp [renderEntries, hk, hvalue]
    | cons next es =>
      have hmore := ih (fun e he => hkeys e (List.mem_cons_of_mem _ he))
        fun e he => h e (List.mem_cons_of_mem _ he)
      simp [renderEntries, hk, hvalue, hmore, return_not_mem_newLine]

variable {number : Int → Prop} {depth : Nat}

theorem noReturn_of_conforms {d : Doc} (h : d.Conforms number (fun k => '\r' ∉ k.toList) depth) :
    NoReturn d := by
  induction h with
  | null =>
    intro level column inMapping
    simp [renderValue]
  | bool b =>
    intro level column inMapping
    cases b <;> simp [renderValue]
  | int _ =>
    intro level column inMapping
    simpa [renderValue] using return_not_mem_toString _
  | text s =>
    intro level column inMapping
    simp [renderValue, return_not_mem_scalarText]
  | @list _ ds _ ih =>
    intro level column inMapping
    cases ds with
    | nil => simp [renderValue]
    | cons d ds =>
      cases inMapping <;>
        simp [renderValue, return_not_mem_renderItems ih, return_not_mem_newLine]
  | @map _ es hkeys _ ih =>
    intro level column inMapping
    cases es with
    | nil => simp [renderValue]
    | cons e es =>
      cases inMapping <;>
        simp [renderValue, return_not_mem_renderEntries hkeys ih, return_not_mem_newLine]

private theorem return_not_mem_print {d : Doc}
    (h : d.Conforms number (fun k => '\r' ∉ k.toList) depth) : '\r' ∉ (print d).toList := by
  have hrender : '\r' ∉ render d := by
    unfold render
    split
    · cases h with
      | map hkeys h =>
        exact return_not_mem_renderEntries hkeys (fun e he => noReturn_of_conforms (h e he)) 0
    · cases h with
      | list h => exact return_not_mem_renderItems (fun d hd => noReturn_of_conforms (h d hd)) 0
    · exact fun hmem => noReturn_of_conforms h 0 0 false (List.mem_of_mem_drop hmem)
  simp [print, hrender]

end Yaml

private theorem unifyLines_eq_self {cs : List Char} (h : '\r' ∉ cs) : unifyLines cs = cs := by
  fun_induction unifyLines cs with
  | case1 rest ih => simp at h
  | case2 rest hrest ih => simp at h
  | case3 c rest hline hreturn ih =>
    rw [ih fun hmem => h (List.mem_cons_of_mem c hmem)]
  | case4 => rfl

/-- A document is read from a file as the text that was written. -/
theorem textOfBytes_write {number : Int → Prop} {depth : Nat} {d : Doc}
    (h : d.Conforms number (fun k => '\r' ∉ k.toList) depth) (format : FileFormat) :
    textOfBytes (Bytes.ofText (format.write d)) = some (format.write d) := by
  have hreturn : '\r' ∉ (format.write d).toList := by
    cases format with
    | json => exact Json.return_not_mem_render 0 d
    | yaml => exact Yaml.return_not_mem_print h
  rw [textOfBytes, Bytes.text?_ofText, Option.map_some, unifyLines_eq_self hreturn,
    String.ofList_toList]

end EndpointAudit
