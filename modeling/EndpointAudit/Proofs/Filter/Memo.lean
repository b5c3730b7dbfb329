import EndpointAudit.Filter.Memo
import EndpointAudit.Proofs.ClassPath.Intact
import EndpointAudit.Proofs.Data.Except

/-!
# What remembered coverage is worth

A memory is faithful if everything in it is what an analysis of the filter type finds. On a class
path without broken archives every filter type has a coverage.
-/

namespace EndpointAudit.Filter

/-- An analysis of the filter type finds this coverage. -/
def IsCoverage (cp : ClassPath) (settings : Settings) (filterType : String)
    (found : Coverage) : Prop :=
  ∃ notices, analyze cp settings filterType = .ok (found, notices)

/-- Everything in the memory is what an analysis finds. -/
def Memo.Faithful (cp : ClassPath) (settings : Settings) (memo : Memo) : Prop :=
  ∀ e ∈ memo.known, IsCoverage cp settings e.1 e.2

theorem Memo.faithful_empty (cp : ClassPath) (settings : Settings) :
    Memo.Faithful cp settings {} := by
  simp [Faithful]

theorem Memo.Faithful.tell {cp : ClassPath} {settings : Settings} {memo : Memo}
    (h : memo.Faithful cp settings) (told : List Notice) :
    (memo.tell told).Faithful cp settings := h

section Analyze

variable {cp : ClassPath} {settings : Settings}

private theorem traceFirst_ne_fatal (hcp : cp.Intact) (inlineLambdas : Bool) (filterType : String)
    (methods : List String) (reason : Unavailable) (e : ScanError) :
    traceFirst cp inlineLambdas filterType reason methods ≠ .error (.fatal e) := by
  induction methods generalizing reason with
  | nil => simp [traceFirst]
  | cons method rest ih =>
    have htrace := hcp.trace_ne_fatal filterType method none inlineLambdas
    rw [traceFirst]
    split
    · simp
    · next e' heq => exact absurd heq (htrace e')
    · simp
    · exact ih _

theorem exists_isCoverage (hcp : cp.Intact) (settings : Settings) (filterType : String) :
    ∃ found, IsCoverage cp settings filterType found := by
  unfold IsCoverage analyze
  split
  · exact ⟨_, _, rfl⟩
  · exact ⟨_, _, rfl⟩
  · next e heq => exact absurd heq (traceFirst_ne_fatal hcp _ _ _ _ e)

theorem IsCoverage.filterType_eq {filterType : String} {found : Coverage}
    (h : IsCoverage cp settings filterType found) : found.filterType = filterType := by
  obtain ⟨notices, h⟩ := h
  unfold analyze at h
  split at h
  · cases h; rfl
  · cases h; rfl
  · cases h

end Analyze

end EndpointAudit.Filter
