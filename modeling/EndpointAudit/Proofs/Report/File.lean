import EndpointAudit.Proofs.Report.Decode
import EndpointAudit.Proofs.Report.LineEnds

/-!
# Report files that are read back

A report that is written to a file of either format is read back as it was. That JSON gives back
what was written is proved for whatever the report holds; of YAML it is assumed.
-/

namespace EndpointAudit

/-- The text of a document is read back as the data that the document stands for. -/
def FileFormat.Lossless (format : FileFormat) (d : Doc) : Prop :=
  format.read (format.write d) = .ok d.toData

private theorem Json.lossless_of_readable {d : Doc} (h : Json.Readable Json.maxDepth d) :
    FileFormat.json.Lossless d := by
  have hread : Json.read (Json.indented d) = some d.toData :=
    Json.read_render Json.isBlank_indented h
  simp only [FileFormat.Lossless, FileFormat.write, FileFormat.read, hread]

/-! ## The documents of reports -/

/-- A document that keeps within the limits of both formats: JSON has one for numbers, and keys
are written as they are in YAML. -/
def Doc.Regular (depth : Nat) (d : Doc) : Prop :=
  d.Conforms (fun n => (toString n).length ≤ Json.maxWhole) (fun k => '\r' ∉ k.toList) depth

variable {depth : Nat}

theorem Doc.regular_ofOption (text : Option String) : (Doc.ofOption text).Regular depth := by
  cases text with
  | none => exact .null
  | some s => exact .text s

theorem Doc.regular_count {n : Nat} (h : n < 10 ^ Json.maxWhole) :
    (Doc.int n).Regular depth := by
  apply Doc.Conforms.int
  rw [← String.length_toList, Json.toList_toString_int, if_pos (by omega), Int.natAbs_natCast]
  exact (Nat.length_toDigits_le_iff (by omega) (by decide)).mpr h

theorem Entry.regular_toDoc (e : Entry) : e.toDoc.Regular (depth + 2) := by
  have hfeatures : (Doc.list (e.features.map Doc.text)).Regular (depth + 1) :=
    .listMap fun s _ => .text s
  apply Doc.Conforms.map
  · simp
  · simp only [List.forall_mem_cons]
    exact ⟨.text _, .text _, .text _, .bool _, Doc.regular_ofOption _, .bool _,
      Doc.regular_ofOption _, hfeatures, Doc.regular_ofOption _, Doc.regular_ofOption _, .bool _,
      by simp⟩

theorem Group.regular_toDoc (g : Group) : g.toDoc.Regular (depth + 4) := by
  have hendpoints : (Doc.list (g.endpoints.map Entry.toDoc)).Regular (depth + 3) :=
    .listMap fun e _ => e.regular_toDoc
  apply Doc.Conforms.map
  · simp
  · simp only [List.forall_mem_cons]
    exact ⟨.text _, hendpoints, by simp⟩

theorem Report.regular_toDoc {r : Report} (hendpoints : r.totalEndpoints < 10 ^ Json.maxWhole)
    (hgroups : r.uniqueExpressions < 10 ^ Json.maxWhole) : r.toDoc.Regular (depth + 6) := by
  have hlist : (Doc.list (r.groups.map Group.toDoc)).Regular (depth + 5) :=
    .listMap fun g _ => g.regular_toDoc
  apply Doc.Conforms.map
  · simp
  · simp only [List.forall_mem_cons]
    exact ⟨.text _, hlist, Doc.regular_count hendpoints, Doc.regular_count hgroups, by simp⟩

private theorem Report.ofFile_eq {name text : String} {bytes : Bytes} {d : Data} {r : Report}
    (htext : textOfBytes bytes = some text) (hread : (FileFormat.ofName name).read text = .ok d)
    (hreport : Decode.report d = .valid r) : Report.ofFile name bytes = .ok r := by
  simp only [Report.ofFile, htext, hread]
  show Report.ofData d = .ok r
  rw [Report.ofData, hreport]

/-- **A report comes back from the file it is written to**, whatever its format, and so it does from
any data that differ only in what is computed. Nothing that is read depends on these fields. The
bounds on the counts are those of JSON on the length of a number. -/
theorem Report.ofFile_write {r : Report} (name : String) (hmoment : r.generatedAt.IsProper)
    (haccepted : ∃ d, Decode.report d = .valid r)
    (hendpoints : r.totalEndpoints < 10 ^ Json.maxWhole)
    (hgroups : r.uniqueExpressions < 10 ^ Json.maxWhole)
    (hyaml : FileFormat.ofName name = .yaml → FileFormat.yaml.Lossless r.toDoc) :
    Decode.report r.toDoc.toData = .valid r ∧
      Report.ofFile name (Bytes.ofText ((FileFormat.ofName name).write r.toDoc)) = .ok r ∧
      (∀ d d', d.reportCore = d'.reportCore → Decode.report d = Decode.report d') ∧
      ∀ d, d.reportCore = r.toDoc.toData.reportCore → Decode.report d = .valid r := by
  have hregular : r.toDoc.Regular Json.maxDepth := r.regular_toDoc hendpoints hgroups
  have hlossless : (FileFormat.ofName name).Lossless r.toDoc := by
    cases hformat : FileFormat.ofName name with
    | json => exact Json.lossless_of_readable (hregular.mono (fun _ h => h) fun _ _ => trivial)
    | yaml => exact hyaml hformat
  have hreport : Decode.report r.toDoc.toData = .valid r := by
    obtain ⟨d, hd⟩ := haccepted
    exact Decode.report_toDoc hmoment (Decode.report_ensures d r hd)
  have hcore : ∀ d d', d.reportCore = d'.reportCore → Decode.report d = Decode.report d' := by
    intro d d' h
    rw [← Decode.report_reportCore d, h, Decode.report_reportCore]
  refine ⟨hreport, ?_, hcore, ?_⟩
  · exact Report.ofFile_eq (textOfBytes_write hregular _) hlossless hreport
  · intro d hd
    rw [hcore d _ hd, hreport]

/-- Noon on the first of March 2026. -/
def marchNoon : Moment :=
  { year := 2026, month := 3, day := 1, hour := 12, minute := 0, second := 0, micro := 0
    offset := some 0 }

/-- A report with two groups, whose texts have to be quoted or escaped. -/
def quotedReport : Report :=
  { generatedAt := marchNoon
    groups :=
      [{ authExpression := "a: b\r\n"
         endpoints :=
          [{ path := "/#", verb := .get, authExpression := "a: b\r\n"
             apiKeyRequired := true, apiKeyHeader := some "null" }] },
        { authExpression := "12"
          endpoints :=
          [{ path := "/", verb := .post, authExpression := "12"
             sessionPolicy := some .stateless, features := ["- x", "é"] }] }] }

private theorem quotedReport_lossless : FileFormat.yaml.Lossless quotedReport.toDoc := by
  have hread : Yaml.read Decode.depth (Yaml.print quotedReport.toDoc) =
      .ok quotedReport.toDoc.toData := by
    -- The kernel takes long to decode a string, so the characters are handed to the scanner.
    rw [Yaml.read, Yaml.print, Yaml.Token.scan, String.toList_ofList]
    decide +kernel
  rw [FileFormat.Lossless, FileFormat.read, FileFormat.write, hread]
  rfl

/-- A report with an endpoint that is not protected against forgery. -/
def openReport : Report :=
  { generatedAt := marchNoon
    groups :=
      [{ authExpression := "hasRole('ADMIN')"
         endpoints :=
          [{ path := "/\u2028\"", verb := .get, authExpression := "hasRole('ADMIN')"
             apiKeyHeader := some "null", sessionPolicy := some .stateless
             features := [Chain.csrfDisabledTag] }] }] }

theorem Report.ofFile_write_samples :
    Report.ofFile "report.yml" (Bytes.ofText (Yaml.print quotedReport.toDoc)) = .ok quotedReport ∧
      Report.ofFile "report.json" (Bytes.ofText (Json.indented openReport.toDoc)) =
        .ok openReport := by
  have hmoment : marchNoon.IsProper :=
    ⟨by decide, by decide, by decide, by decide, by decide, by decide, by decide⟩
  constructor
  · have haccepted : ∃ d, Decode.report d = .valid quotedReport :=
      ⟨_, Decode.report_toDoc hmoment (by decide)⟩
    exact (Report.ofFile_write "report.yml" hmoment haccepted (by decide +kernel)
      (by decide +kernel) fun _ => quotedReport_lossless).2.1
  · have haccepted : ∃ d, Decode.report d = .valid openReport :=
      ⟨_, Decode.report_toDoc hmoment (by decide)⟩
    have hjson : FileFormat.ofName "report.json" ≠ .yaml := by decide +kernel
    exact (Report.ofFile_write "report.json" hmoment haccepted (by decide +kernel)
      (by decide +kernel) fun hyaml => absurd hyaml hjson).2.1

end EndpointAudit
