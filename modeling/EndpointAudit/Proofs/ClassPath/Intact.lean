import EndpointAudit.ClassPath.Basic

/-!
# Class paths without broken archives

On a class path whose archives can all be opened nothing that is read ends a scan: a class is read,
or it is unavailable.
-/

namespace EndpointAudit.ClassPath

/-- Every archive of the class path can be opened. -/
def Intact (cp : ClassPath) : Prop := ∀ entry ∈ cp.entries, entry.content ≠ .brokenArchive

instance (cp : ClassPath) : Decidable cp.Intact :=
  inferInstanceAs (Decidable (∀ entry ∈ cp.entries, entry.content ≠ .brokenArchive))

theorem readEntry_ne_error {entry : ClassPathEntry} (h : entry.content ≠ .brokenArchive)
    (resource : String) (e : ScanError) : readEntry entry resource ≠ .error e := by
  unfold readEntry
  cases hcontent : entry.content with
  | brokenArchive => exact absurd hcontent h
  | folder | archive | other => simp

private theorem readFrom_ne_error {entries : List ClassPathEntry}
    (h : ∀ entry ∈ entries, entry.content ≠ .brokenArchive) (resource : String)
    (e : ScanError) : readFrom resource entries ≠ .error e := by
  induction entries with
  | nil => simp [readFrom]
  | cons entry rest ih =>
    have hrest := ih fun entry' hmem => h entry' (by simp [hmem])
    rw [readFrom]
    cases hread : readEntry entry resource with
    | error e' => exact absurd hread (readEntry_ne_error (h entry (by simp)) resource e')
    | ok found =>
      cases found with
      | none => exact hrest
      | some bytes => simp

variable {cp : ClassPath}

private theorem Intact.read_ne_fatal (h : cp.Intact) (typeName : String) (e : ScanError) :
    cp.read typeName ≠ .error (.fatal e) := by
  unfold read
  cases hread : readFrom (resourceOf typeName) cp.entries with
  | error e' => exact absurd hread (readFrom_ne_error h _ e')
  | ok found => cases found <;> simp

theorem mapError_ne_fatal {ε α : Type} (found : Except ε α) (reason : ε → Unavailable)
    (e : ScanError) :
    found.mapError (fun e' => LoadError.unavailable (reason e')) ≠ .error (.fatal e) := by
  cases found <;> nofun

theorem bind_ne_fatal {α β : Type} {first : Except LoadError α} {next : α → Except LoadError β}
    {e : ScanError} (hfirst : first ≠ .error (.fatal e))
    (hnext : ∀ a, next a ≠ .error (.fatal e)) : first >>= next ≠ .error (.fatal e) := by
  cases first with
  | error e' =>
    intro heq
    apply hfirst
    cases heq
    rfl
  | ok a => exact hnext a

theorem Intact.load_ne_fatal (h : cp.Intact) (typeName : String) (e : ScanError) :
    cp.load typeName ≠ .error (.fatal e) :=
  bind_ne_fatal (h.read_ne_fatal _ e) fun _ => mapError_ne_fatal _ _ e

theorem Intact.load_unavailable (h : cp.Intact) {typeName : String}
    (hnone : (cp.load typeName).toOption = none) :
    ∃ reason, cp.load typeName = .error (.unavailable reason) := by
  cases hload : cp.load typeName with
  | ok cls =>
    rw [hload] at hnone
    cases hnone
  | error e =>
    cases e with
    | unavailable reason => exact ⟨reason, rfl⟩
    | fatal e => exact absurd hload (h.load_ne_fatal typeName e)

theorem Intact.trace_ne_fatal (h : cp.Intact) (typeName methodName : String)
    (descriptor : Option String) (inlineLambdas : Bool) (e : ScanError) :
    cp.trace typeName methodName descriptor inlineLambdas ≠ .error (.fatal e) :=
  bind_ne_fatal (h.load_ne_fatal typeName e) fun _ => mapError_ne_fatal _ _ e

end EndpointAudit.ClassPath
