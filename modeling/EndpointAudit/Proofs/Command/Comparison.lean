import EndpointAudit.Command.Run
import EndpointAudit.Proofs.Bytes.Utf8
import EndpointAudit.Proofs.Data.Except
import EndpointAudit.Proofs.Report.Diff

/-!
# Comparing two report files

What becomes of a comparison on the console, whatever the two files hold and whatever the host is
like. It shows the whole difference, or what the console takes of it, or fails on the first file
that cannot be read. That failure has a message for the user unless the file is one of those that
the command does not expect: bytes that are no text, and texts on which the reader of YAML gives up
with an error that is not its own.
-/

namespace EndpointAudit.Command

/-- A file whose failure has no message: its bytes are no text, or it is YAML and the host's reader
fails on it otherwise than by calling it malformed. -/
def Host.Unexpected (host : Host) (name : String) (bytes : Bytes) : Prop :=
  (∀ text, bytes ≠ Bytes.ofText text) ∨
    FileFormat.ofName name = .yaml ∧ ∃ text fault, textOfBytes bytes = some text ∧
      host.yaml text = .error fault ∧ fault ≠ .malformed

/-- The first of some files that holds no report. -/
def Host.FirstUnreadable (host : Host) (files : List (String × Bytes)) (name : String)
    (bytes : Bytes) : Prop :=
  ∃ before after, files = before ++ (name, bytes) :: after ∧
    (∀ f ∈ before, ∃ r, Report.ofFile f.1 f.2 host.yaml = .ok r) ∧
    ∀ r, Report.ofFile name bytes host.yaml ≠ .ok r

/-- The console has been given some items: it takes them all, or takes those before the first that
it refuses. -/
inductive Host.Displays (host : Host) (items : List Printed) (outcome : Outcome) : Prop
  | all (haccepted : ∀ item ∈ items, host.refusal? item = none)
      (hprints : outcome.prints = items) (hfailure : outcome.failure = none)
  | refused {shown rest : List Printed} {item : Printed} {complaint : String}
      (hitems : items = shown ++ item :: rest)
      (haccepted : ∀ item ∈ shown, host.refusal? item = none)
      (hrefusal : host.refusal? item = some complaint)
      (hprints : outcome.prints = shown)
      (hfailure : outcome.failure = some (.console complaint))

/-! ## Printing -/

section Printing

variable {host : Host} {item : Printed}

private theorem print_refused {complaint : String} (h : host.refusal? item = some complaint)
    (rest : List Printed) : host.print (item :: rest) = .failed (.console complaint) := by
  rw [Host.print, h]

private theorem print_accepted (h : host.refusal? item = none) (rest : List Printed) :
    (host.print (item :: rest)).prints = item :: (host.print rest).prints ∧
      (host.print (item :: rest)).failure = (host.print rest).failure := by
  rw [Host.print, h]
  exact ⟨rfl, rfl⟩

/-- What has been shown stays shown, and the first refusal is the last thing that happens. -/
theorem displays_print (host : Host) (items : List Printed) :
    host.Displays items (host.print items) := by
  induction items with
  | nil => exact .all (by simp) rfl rfl
  | cons item rest ih =>
    cases hitem : host.refusal? item with
    | some complaint =>
      have hprint := print_refused hitem rest
      rw [hprint]
      exact .refused (List.nil_append _).symm (by simp) hitem rfl rfl
    | none =>
      obtain ⟨hprints, hfailure⟩ := print_accepted hitem rest
      cases ih with
      | all haccepted hall hnone =>
        exact .all (List.forall_mem_cons.mpr ⟨hitem, haccepted⟩) (by rw [hprints, hall])
          (hfailure.trans hnone)
      | @refused shown after p complaint hrest haccepted hrefusal hshown hsome =>
        have hitems : item :: rest = (item :: shown) ++ p :: after := by
          rw [hrest, List.cons_append]
        exact .refused hitems (List.forall_mem_cons.mpr ⟨hitem, haccepted⟩) hrefusal
          (by rw [hprints, hshown]) (hfailure.trans hsome)

end Printing

/-! ## Files that hold no report -/

theorem textOfBytes_eq_none_iff {bytes : Bytes} :
    textOfBytes bytes = none ↔ ∀ text, bytes ≠ Bytes.ofText text := by
  rw [textOfBytes, Option.map_eq_none_iff, Bytes.text?_eq_none_iff]

section Reading

variable {host : Host} {name text : String} {bytes : Bytes} {e : ReadError}

private theorem unexpected_of_textOfBytes (h : textOfBytes bytes = some text) :
    host.Unexpected name bytes ↔ FileFormat.ofName name = .yaml ∧
      ∃ fault, host.yaml text = .error fault ∧ fault ≠ .malformed := by
  have hsome : ¬ ∀ text, bytes ≠ Bytes.ofText text := by
    rw [← textOfBytes_eq_none_iff, h]
    simp
  simp only [Host.Unexpected, hsome, false_or, h, Option.some.injEq]
  constructor
  · rintro ⟨hyaml, _, fault, rfl, hfault⟩
    exact ⟨hyaml, fault, hfault⟩
  · rintro ⟨hyaml, fault, hfault⟩
    exact ⟨hyaml, text, fault, rfl, hfault⟩

private theorem message?_of_invalid (h : ∃ faults, e = .invalid faults) (words : Option String) :
    (Failure.unreadable name e).message? words =
      some (Text.withWords ("Cannot read report " ++ name) words) := by
  obtain ⟨faults, rfl⟩ := h
  rfl

private theorem message?_yaml (name : String) (fault : Yaml.Fault) (words : Option String) :
    (Failure.unreadable name (.yaml fault)).message? words =
      if fault = .malformed then some (Text.withWords ("Cannot read report " ++ name) words)
      else none := by
  cases fault <;> rfl

private theorem invalid_of_ofData {d : Data} (h : Report.ofData d = .error e) :
    ∃ faults, e = .invalid faults := by
  unfold Report.ofData at h
  split at h
  · contradiction
  · next faults _ => exact ⟨faults, (Except.error.inj h).symm⟩

private theorem invalid_of_json_read (h : FileFormat.json.read text host.yaml = .error e) :
    ∃ faults, e = .invalid faults := by
  simp only [FileFormat.read] at h
  split at h
  · contradiction
  · exact ⟨_, (Except.error.inj h).symm⟩

private theorem fault_of_yaml_read (h : FileFormat.yaml.read text host.yaml = .error e) :
    ∃ fault, host.yaml text = .error fault ∧ e = .yaml fault := by
  simp only [FileFormat.read] at h
  generalize host.yaml text = result at h
  cases result with
  | ok d => contradiction
  | error fault => exact ⟨fault, rfl, (Except.error.inj h).symm⟩

/-- What cannot be read as YAML is told apart by its fault; all else is invalid data. -/
theorem cases_of_ofFile (htext : textOfBytes bytes = some text)
    (h : Report.ofFile name bytes host.yaml = .error e) :
    (∃ faults, e = .invalid faults) ∧
        (FileFormat.ofName name = .yaml → ∃ d, host.yaml text = .ok d) ∨
      ∃ fault, FileFormat.ofName name = .yaml ∧ host.yaml text = .error fault ∧
        e = .yaml fault := by
  simp only [Report.ofFile, htext] at h
  cases hread : (FileFormat.ofName name).read text host.yaml with
  | ok d =>
    rw [hread] at h
    refine .inl ⟨invalid_of_ofData h, fun hyaml => ⟨d, ?_⟩⟩
    rw [hyaml] at hread
    exact eq_ok_of_mapError_eq_ok hread
  | error e' =>
    rw [hread] at h
    obtain rfl : e' = e := Except.error.inj h
    cases hformat : FileFormat.ofName name with
    | json =>
      rw [hformat] at hread
      exact .inl ⟨invalid_of_json_read hread, nofun⟩
    | yaml =>
      rw [hformat] at hread
      obtain ⟨fault, hfault, he⟩ := fault_of_yaml_read hread
      exact .inr ⟨fault, rfl, hfault, he⟩

/-- A file that holds no report fails with a message that names it, unless it is unexpected. -/
theorem message?_of_ofFile (h : Report.ofFile name bytes host.yaml = .error e)
    (words : Option String) :
    (host.Unexpected name bytes → (Failure.unreadable name e).message? words = none) ∧
      (¬ host.Unexpected name bytes → (Failure.unreadable name e).message? words =
        some (Text.withWords ("Cannot read report " ++ name) words)) := by
  cases htext : textOfBytes bytes with
  | none =>
    have hbytes : host.Unexpected name bytes := .inl (textOfBytes_eq_none_iff.mp htext)
    simp only [Report.ofFile, htext, Except.error.injEq] at h
    subst h
    exact ⟨fun _ => rfl, fun hexpected => absurd hbytes hexpected⟩
  | some text =>
    rw [unexpected_of_textOfBytes htext]
    rcases cases_of_ofFile htext h with ⟨hinvalid, hok⟩ | ⟨fault, hyaml, hfault, rfl⟩
    · refine ⟨?_, fun _ => message?_of_invalid hinvalid words⟩
      rintro ⟨hyaml, fault, hfault, -⟩
      obtain ⟨d, hd⟩ := hok hyaml
      exact absurd (hd.symm.trans hfault) (by simp)
    · rw [message?_yaml]
      constructor
      · rintro ⟨-, fault', hfault', hne⟩
        obtain rfl : fault = fault' := Except.error.inj (hfault.symm.trans hfault')
        exact if_neg hne
      · intro hexpected
        apply if_pos
        by_contra hne
        exact hexpected ⟨hyaml, fault, hfault, hne⟩

end Reading

/-! ## The comparison -/

/-- Every endpoint of a difference is shown. -/
theorem length_diffRows (key : DiffKey) (old new : Report) :
    (Render.diffRows (old.diff key new)).length =
      (old.diff key new).added.length + (old.diff key new).removed.length +
        (old.diff key new).changed.length := by
  have hadded : ∀ c ∈ (old.diff key new).added,
      (Render.diffRow "[green]added[/green]" c.new Render.featuresCell).isSome = true := by
    intro c hc
    obtain ⟨k, e, -, -, rfl⟩ := (Report.mem_diff_added key old new c).mp hc
    rfl
  have hremoved : ∀ c ∈ (old.diff key new).removed,
      (Render.diffRow "[red]removed[/red]" c.old fun _ => "-").isSome = true := by
    intro c hc
    obtain ⟨k, e, -, -, rfl⟩ := (Report.mem_diff_removed key old new c).mp hc
    rfl
  have hchanged : ∀ c ∈ (old.diff key new).changed,
      (Render.diffRow "[yellow]changed[/yellow]" c.new fun _ =>
        Text.join "\n" ((Render.changes c).map Text.escape)).isSome = true := by
    intro c hc
    obtain ⟨k, before, e, -, -, -, rfl⟩ := (Report.mem_diff_changed key old new c).mp hc
    rfl
  rw [Render.diffRows, List.length_append, List.length_append,
    List.filterMap_length_eq_length.mpr hadded, List.filterMap_length_eq_length.mpr hremoved,
    List.filterMap_length_eq_length.mpr hchanged]

private theorem loadReport_of_fileNamed (host : Host) {store : FileStore} {name : String}
    {bytes : Bytes} (h : store.fileNamed? name = some (.plain bytes)) :
    loadReport host store name =
      (Report.ofFile name bytes host.yaml).mapError (.unreadable name) := by
  rw [loadReport, h]
  rfl

private theorem ne_ok_of_ofFile {host : Host} {name : String} {bytes : Bytes} {e : ReadError}
    (h : Report.ofFile name bytes host.yaml = .error e) (r : Report) :
    Report.ofFile name bytes host.yaml ≠ .ok r := by
  rw [h]
  exact nofun

/-- **A comparison on the console shows the difference, or fails on the first file that holds no
report.** The failure has a message, which names the file, unless the file is unexpected. A
difference is shown as far as the console takes it, and a refusal of the console has no message. -/
theorem comparison_outcome {store : FileStore} {arguments : List String} {verbose : Bool}
    {old new : String} {key : DiffKey} {oldBytes newBytes : Bytes} (host : Host)
    (environment : List (String × String)) (now : Moment)
    (harguments : Invocation.ofArguments store arguments =
      .ok { verbose, request := .diff old new key {} })
    (hold : store.fileNamed? old = some (.plain oldBytes))
    (hnew : store.fileNamed? new = some (.plain newBytes)) :
    ∃ outcome, run store environment now arguments host = .ok outcome ∧
      ((∃ before after, Report.ofFile old oldBytes host.yaml = .ok before ∧
          Report.ofFile new newBytes host.yaml = .ok after ∧
          host.Displays (Render.diff (before.diff key after)) outcome ∧
          (Render.diffRows (before.diff key after)).length =
            (before.diff key after).added.length + (before.diff key after).removed.length +
              (before.diff key after).changed.length) ∨
        ∃ name bytes, host.FirstUnreadable [(old, oldBytes), (new, newBytes)] name bytes ∧
          outcome.prints = [] ∧ ∃ failure, outcome.failure = some failure ∧
            ∀ words, (host.Unexpected name bytes → failure.message? words = none) ∧
              (¬ host.Unexpected name bytes → failure.message? words =
                some (Text.withWords ("Cannot read report " ++ name) words))) := by
  refine ⟨_, by rw [run, harguments]; rfl, ?_⟩
  simp only [Invocation.run, Request.run, runDiff, loadReport_of_fileNamed host hold,
    loadReport_of_fileNamed host hnew]
  cases hfirst : Report.ofFile old oldBytes host.yaml with
  | error e =>
    exact .inr ⟨old, oldBytes, ⟨[], [(new, newBytes)], rfl, by simp, ne_ok_of_ofFile hfirst⟩,
      rfl, _, rfl, message?_of_ofFile hfirst⟩
  | ok before =>
    cases hsecond : Report.ofFile new newBytes host.yaml with
    | error e =>
      have hread : ∀ f ∈ [(old, oldBytes)], ∃ r, Report.ofFile f.1 f.2 host.yaml = .ok r := by
        intro f hf
        rw [List.mem_singleton.mp hf]
        exact ⟨before, hfirst⟩
      exact .inr ⟨new, newBytes, ⟨[(old, oldBytes)], [], rfl, hread, ne_ok_of_ofFile hsecond⟩,
        rfl, _, rfl, message?_of_ofFile hsecond⟩
    | ok after =>
      refine .inl ⟨before, after, rfl, rfl, ?_, length_diffRows key before after⟩
      -- Setting up the log touches neither what is printed nor the failure.
      cases displays_print host (Render.diff (before.diff key after)) with
      | all haccepted hprints hfailure => exact .all haccepted hprints hfailure
      | refused hitems haccepted hrefusal hprints hfailure =>
        exact .refused hitems haccepted hrefusal hprints hfailure

/-- The text of a report with the given groups. -/
def reportText (groups : String) : String :=
  "\x7b\"generated_at\": \"2026-03-01T12:00:00Z\", \"groups\": [" ++ groups ++ "]\x7d"

/-- The text of a group with one endpoint that has two features. -/
def taggedGroup : String :=
  "\x7b\"auth_expression\": \"None\", \"endpoints\": [\x7b\"path\": \"/\", " ++
    "\"verb\": \"GET\", \"security_features\": [\"[/a\", \"b]\"]\x7d]\x7d"

/-- A JSON file that is cut short, one that is no text, and two reports of which the second has an
endpoint more. -/
def mixedStore : FileStore :=
  { files := [(["cut.json"], .plain (Bytes.ofText "\x7b")), (["odd.json"], .plain [0xFF]),
      (["old.json"], .plain (Bytes.ofText (reportText ""))),
      (["new.json"], .plain (Bytes.ofText (reportText taggedGroup)))] }

theorem comparison_outcome_mixedStore :
    ∃ outcome failure, run mixedStore [] default ["diff", "cut.json", "odd.json", "--by-path"] =
        .ok outcome ∧ outcome.failure = some failure ∧
      failure.message? = some ("Cannot read report " ++ "cut.json") := by
  have hcut : (Report.ofFile "cut.json" (Bytes.ofText "\x7b")).toOption = none := by
    decide +kernel
  have hunread : ∀ r, Report.ofFile "cut.json" (Bytes.ofText "\x7b") ≠ .ok r := by
    intro r hr
    rw [hr] at hcut
    exact absurd hcut (by simp [Except.toOption])
  have hexpected : ¬ Host.Unexpected {} "cut.json" (Bytes.ofText "\x7b") := by
    rintro (hbytes | ⟨hyaml, -⟩)
    · exact hbytes _ rfl
    · exact absurd hyaml (by decide +kernel)
  have harguments : Invocation.ofArguments mixedStore
      ["diff", "cut.json", "odd.json", "--by-path"] =
        .ok { verbose := false, request := .diff "cut.json" "odd.json" .path {} } := by rfl
  have hold : mixedStore.fileNamed? "cut.json" = some (.plain (Bytes.ofText "\x7b")) := by rfl
  have hnew : mixedStore.fileNamed? "odd.json" = some (.plain [0xFF]) := by rfl
  obtain ⟨outcome, hrun, ⟨before, -, hbefore, -⟩ | ⟨name, bytes, hfirst, -, failure, hfailure,
    hmessage⟩⟩ := comparison_outcome {} [] default harguments hold hnew
  · exact absurd hbefore (hunread before)
  · obtain ⟨front, after, hsplit, hread, -⟩ := hfirst
    cases front with
    | nil =>
      obtain ⟨hfile, -⟩ := List.cons.inj hsplit
      obtain ⟨rfl, rfl⟩ := Prod.mk.inj hfile
      exact ⟨outcome, failure, hrun, hfailure, (hmessage none).2 hexpected⟩
    | cons f front =>
      obtain ⟨rfl, -⟩ := List.cons.inj hsplit
      obtain ⟨r, hr⟩ := hread _ List.mem_cons_self
      exact absurd hr (hunread r)

/-- Whether a text begins with a tag that closes another one. -/
def closesTag (markup : String) : Bool :=
  match Text.leadingTag markup.toList with
  | some ('[' :: '/' :: _, _) => true
  | _ => false

/-- A host whose console refuses a cell that begins by closing a tag. -/
def strictHost : Host where
  refusal? item :=
    match item with
    | .table _ _ rows =>
      if rows.any (·.any closesTag) then some "closing tag doesn't match any open tag" else none
    | .line _ => none

/-- A file that is no text makes a comparison fail without a message. So do two reports on a console
that refuses to close a tag which has not been opened: features are escaped one by one, and two of
them can make a tag together. -/
theorem comparison_without_message :
    ((run mixedStore [] default ["diff", "odd.json", "cut.json"]).toOption.map (·.failure) =
        some (some (.unreadable "odd.json" .notText)) ∧
      (Failure.unreadable "odd.json" .notText).message? = none) ∧
    ((run mixedStore [] default ["diff", "old.json", "new.json"] strictHost).toOption.map
        (·.failure) = some (some (.console "closing tag doesn't match any open tag")) ∧
      (Failure.console "closing tag doesn't match any open tag").message? = none) := by
  decide +kernel

end EndpointAudit.Command
