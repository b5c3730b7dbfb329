import EndpointAudit.Proofs.Filter.PathCheck
import Mathlib.Data.List.Nodup

/-!
# What a pattern rests on

Every pattern that is read off a trace can be traced back: a text was compared while it was the
last constant and after the path had been read, and the wildcard comes from a negated branch. The
fields of a matcher never contradict each other, so a comparison always has a text to settle.
-/

namespace EndpointAudit.Filter

/-! ## A matcher with independent fields -/

/-- How far a check has come, without what has been remembered of it. -/
inductive Phase where
  | idle
  | pathRead
  | constant
  | awaitBranch
deriving DecidableEq, Repr

/-- A matcher whose fields are not tied to each other. -/
structure LooseMatcher where
  phase : Phase := .idle
  lastConstant : Option String := none
  pendingNegation : Bool := false
  patterns : List String := []
deriving DecidableEq, Repr

namespace LooseMatcher

/-- Settles a comparison. There is no answer if no constant has been remembered. -/
def emit (m : LooseMatcher) (negated : Bool) : Option LooseMatcher :=
  m.lastConstant.map fun text =>
    { patterns := addPattern (if negated then Route.wildcard else text) m.patterns }

/-- The matcher after an event that does not settle a comparison. -/
def handle (m : LooseMatcher) (event : Event) : LooseMatcher :=
  match event with
  | .constant text =>
    { m with
      lastConstant := some text
      phase := if m.phase = .pathRead then .constant else m.phase }
  | .branch negated =>
    if m.phase = .idle then m else { m with pendingNegation := m.pendingNegation || negated }
  | .call c =>
    if readsPath c then
      if m.phase = .idle then
        { m with
          pendingNegation := false
          phase := if m.lastConstant.isSome then .constant else .pathRead }
      else m
    else if comparesTexts c then
      if m.phase = .constant then { m with phase := .awaitBranch }
      else { m with lastConstant := none }
    else
      { m with
        lastConstant := none
        phase := if m.phase = .constant then .pathRead else m.phase }

def feed (m : LooseMatcher) (event : Event) : Option LooseMatcher :=
  if m.phase = .awaitBranch then
    match event with
    | .branch negated => m.emit (m.pendingNegation || negated)
    | event => (m.emit m.pendingNegation).map (·.handle event)
  else some (m.handle event)

def finish (m : LooseMatcher) : Option (List String) :=
  if m.phase = .awaitBranch then (m.emit m.pendingNegation).map (·.patterns) else some m.patterns

/-- What is remembered fits how far the check has come. -/
def Consistent (m : LooseMatcher) : Prop :=
  (m.phase = .constant ∨ m.phase = .awaitBranch → m.lastConstant.isSome = true) ∧
    (m.phase = .idle → m.pendingNegation = false)

end LooseMatcher

def Stage.phase : Stage → Phase
  | .idle _ => .idle
  | .pathRead _ => .pathRead
  | .constant .. => .constant
  | .awaitBranch .. => .awaitBranch

namespace PathMatcher

/-- The matcher with its fields taken apart. -/
def loosen (m : PathMatcher) : LooseMatcher :=
  ⟨m.stage.phase, m.stage.lastConstant, m.stage.pendingNegation, m.patterns⟩

private theorem consistent_loosen (m : PathMatcher) : m.loosen.Consistent := by
  obtain ⟨stage, patterns⟩ := m
  cases stage <;>
    simp [loosen, LooseMatcher.Consistent, Stage.phase, Stage.lastConstant, Stage.pendingNegation]

theorem handle_loosen {m : PathMatcher} (h : ∀ text negated, m.stage ≠ .awaitBranch text negated)
    (event : Event) :
    m.loosen.handle event = (⟨m.stage.next event, m.patterns⟩ : PathMatcher).loosen := by
  obtain ⟨stage, patterns⟩ := m
  cases event with
  | constant text =>
    cases stage with
    | awaitBranch text negated => exact absurd rfl (h text negated)
    | _ => rfl
  | branch negated =>
    cases stage with
    | awaitBranch text negated => exact absurd rfl (h text negated)
    | _ => rfl
  | call c =>
    by_cases hread : readsPath c = true
    · cases stage with
      | idle loaded =>
        cases loaded <;> simp [LooseMatcher.handle, loosen, Stage.next, hread, Stage.onPathRead,
          Stage.phase, Stage.lastConstant, Stage.pendingNegation]
      | awaitBranch text negated => exact absurd rfl (h text negated)
      | _ => simp [LooseMatcher.handle, loosen, Stage.next, hread, Stage.onPathRead, Stage.phase]
    · by_cases hcompare : comparesTexts c = true
      · cases stage with
        | awaitBranch text negated => exact absurd rfl (h text negated)
        | _ => simp [LooseMatcher.handle, loosen, Stage.next, hread, hcompare, Stage.onComparison,
            Stage.phase, Stage.lastConstant, Stage.pendingNegation]
      · cases stage with
        | awaitBranch text negated => exact absurd rfl (h text negated)
        | _ => simp [LooseMatcher.handle, loosen, Stage.next, hread, hcompare, Stage.onOtherCall,
            Stage.phase, Stage.lastConstant, Stage.pendingNegation]

theorem emit_loosen {m : PathMatcher} {text : String} {pending : Bool}
    (h : m.stage = .awaitBranch text pending) (negated : Bool) :
    m.loosen.emit negated = some (m.emit text negated).loosen := by
  rw [LooseMatcher.emit, loosen, h]
  rfl

/-- A matcher and its loose copy take the same steps. -/
theorem feed_loosen (m : PathMatcher) (event : Event) :
    m.loosen.feed event = some (m.feed event).loosen := by
  cases hstage : m.stage with
  | awaitBranch text negated =>
    have hphase : m.loosen.phase = .awaitBranch := by rw [loosen, hstage]; rfl
    have hpending : m.loosen.pendingNegation = negated := by rw [loosen, hstage]; rfl
    cases event with
    | branch branch =>
      simp only [LooseMatcher.feed, if_pos hphase, hpending, emit_loosen hstage, feed, hstage]
    | constant text' =>
      simp only [LooseMatcher.feed, if_pos hphase, hpending, emit_loosen hstage, feed, hstage,
        Option.map_some]
      rw [handle_loosen (by simp [emit])]
    | call c =>
      simp only [LooseMatcher.feed, if_pos hphase, hpending, emit_loosen hstage, feed, hstage,
        Option.map_some]
      rw [handle_loosen (by simp [emit])]
  | _ =>
    have hphase : m.loosen.phase ≠ .awaitBranch := by
      rw [loosen, hstage]
      simp [Stage.phase]
    unfold LooseMatcher.feed
    rw [if_neg hphase, handle_loosen (by simp [hstage])]
    simp only [feed, hstage]

private theorem finish_loosen (m : PathMatcher) : m.loosen.finish = some m.finish := by
  obtain ⟨stage, patterns⟩ := m
  cases stage <;> rfl

private theorem foldlM_loosen (m : PathMatcher) (trace : List Event) :
    trace.foldlM LooseMatcher.feed m.loosen = some (trace.foldl feed m).loosen := by
  induction trace generalizing m with
  | nil => rfl
  | cons event trace ih =>
    rw [List.foldlM_cons, feed_loosen]
    exact ih (m.feed event)

end PathMatcher

/-! ## Evidence in a trace -/

/-- An event that leaves a remembered constant in place: the path is read, or a boolean tested. -/
def keepsConstant : Event → Bool
  | .call c => readsPath c
  | .branch _ => true
  | .constant _ => false

/-- The trace ends while the text is the last constant. -/
def Holds (trace : List Event) (text : String) : Prop :=
  ∃ before between, trace = before ++ .constant text :: between ∧
    ∀ event ∈ between, keepsConstant event = true

def ReadsPath (trace : List Event) : Prop := ∃ read, .call read ∈ trace ∧ readsPath read = true

/-- The text is compared while it is the last constant and after the path has been read. -/
def Compares (trace : List Event) (text : String) : Prop :=
  ∃ before between compare after,
    trace = before ++ .constant text :: (between ++ .call compare :: after) ∧
    comparesTexts compare = true ∧ (∀ event ∈ between, keepsConstant event = true) ∧
    ReadsPath (before ++ between)

section Evidence

variable {trace : List Event} {text : String}

private theorem holds_concat (trace : List Event) (text : String) :
    Holds (trace ++ [.constant text]) text :=
  ⟨trace, [], rfl, by simp⟩

theorem Holds.concat (h : Holds trace text) {event : Event} (hkeeps : keepsConstant event = true) :
    Holds (trace ++ [event]) text := by
  obtain ⟨before, between, rfl, hbetween⟩ := h
  refine ⟨before, between ++ [event], by simp, ?_⟩
  intro e he
  rcases List.mem_append.mp he with hold | hnew
  · exact hbetween e hold
  · rw [List.mem_singleton.mp hnew]
    exact hkeeps

theorem ReadsPath.append (h : ReadsPath trace) (more : List Event) :
    ReadsPath (trace ++ more) := by
  obtain ⟨read, hmem, hread⟩ := h
  exact ⟨read, List.mem_append_left _ hmem, hread⟩

private theorem readsPath_concat (trace : List Event) {c : Call} (h : readsPath c = true) :
    ReadsPath (trace ++ [.call c]) :=
  ⟨c, by simp, h⟩

theorem Holds.compares (h : Holds trace text) (hread : ReadsPath trace) {c : Call}
    (hcompare : comparesTexts c = true) : Compares (trace ++ [.call c]) text := by
  obtain ⟨before, between, rfl, hbetween⟩ := h
  refine ⟨before, between, c, [], by simp, hcompare, hbetween, ?_⟩
  obtain ⟨read, hmem, hread⟩ := hread
  exact ⟨read, by simpa using hmem, hread⟩

theorem Compares.append (h : Compares trace text) (more : List Event) :
    Compares (trace ++ more) text := by
  obtain ⟨before, between, compare, after, rfl, hcompare, hbetween, hread⟩ := h
  exact ⟨before, between, compare, after ++ more, by simp, hcompare, hbetween, hread⟩

theorem Compares.readsPath (h : Compares trace text) : ReadsPath trace := by
  obtain ⟨before, between, compare, after, rfl, -, -, read, hmem, hread⟩ := h
  refine ⟨read, ?_, hread⟩
  rcases List.mem_append.mp hmem with hbefore | hbetween
  · exact List.mem_append_left _ hbefore
  · exact List.mem_append_right _ (List.mem_cons_of_mem _ (List.mem_append_left _ hbetween))

private theorem Compares.constant_mem (h : Compares trace text) : .constant text ∈ trace := by
  obtain ⟨before, between, compare, after, rfl, -⟩ := h
  simp

end Evidence

/-- What a stage remembers is what the trace has shown. -/
def Stage.Grounded (trace : List Event) (stage : Stage) : Prop :=
  (stage.pendingNegation = true → .branch true ∈ trace) ∧
  match stage with
  | .idle loaded => ∀ text, loaded = some text → Holds trace text
  | .pathRead _ => ReadsPath trace
  | .constant text _ => Holds trace text ∧ ReadsPath trace
  | .awaitBranch text _ => Compares trace text

namespace Stage

variable {trace : List Event} {stage : Stage}

theorem Grounded.settle (h : stage.Grounded trace) : stage.settle.Grounded trace := by
  cases stage with
  | awaitBranch text negated => simp [Grounded, Stage.settle, pendingNegation]
  | _ => exact h

theorem Grounded.branch_mem (h : stage.Grounded trace) (more : List Event)
    (hpending : stage.pendingNegation = true) : .branch true ∈ trace ++ more :=
  List.mem_append_left _ (h.1 hpending)

theorem Grounded.onConstant (h : stage.Grounded trace) (text : String) :
    (stage.onConstant text).Grounded (trace ++ [.constant text]) := by
  have hholds := holds_concat trace text
  have hnegation := h.branch_mem [.constant text]
  cases stage with
  | idle loaded => simpa [Grounded, Stage.onConstant, pendingNegation] using hholds
  | pathRead negated => exact ⟨hnegation, hholds, h.2.append _⟩
  | constant text' negated => exact ⟨hnegation, hholds, h.2.2.append _⟩
  | awaitBranch text' negated => exact ⟨hnegation, hholds, h.2.readsPath.append _⟩

theorem Grounded.onBranch (h : stage.Grounded trace) (branch : Bool) :
    (stage.onBranch branch).Grounded (trace ++ [.branch branch]) := by
  have hnegation : (stage.pendingNegation || branch) = true →
      .branch true ∈ trace ++ [.branch branch] := by
    intro hpending
    cases branch with
    | true => simp
    | false => exact h.branch_mem _ (by simpa using hpending)
  cases stage with
  | idle loaded =>
    refine ⟨by simp [Stage.onBranch, pendingNegation], ?_⟩
    intro text htext
    exact (h.2 text htext).concat rfl
  | pathRead negated => exact ⟨hnegation, h.2.append _⟩
  | constant text negated => exact ⟨hnegation, h.2.1.concat rfl, h.2.2.append _⟩
  | awaitBranch text negated => exact ⟨hnegation, h.2.append _⟩

theorem Grounded.onPathRead (h : stage.Grounded trace) {c : Call} (hread : readsPath c = true) :
    stage.onPathRead.Grounded (trace ++ [.call c]) := by
  have hreads := readsPath_concat trace hread
  have hnegation := h.branch_mem [.call c]
  cases stage with
  | idle loaded =>
    cases loaded with
    | none => exact ⟨by simp [Stage.onPathRead, pendingNegation], hreads⟩
    | some text =>
      have hholds : Holds trace text := h.2 text rfl
      exact ⟨by simp [Stage.onPathRead, pendingNegation], hholds.concat hread, hreads⟩
  | pathRead negated => exact ⟨hnegation, hreads⟩
  | constant text negated => exact ⟨hnegation, h.2.1.concat hread, hreads⟩
  | awaitBranch text negated => exact ⟨hnegation, h.2.append _⟩

theorem Grounded.onComparison (h : stage.Grounded trace) {c : Call}
    (hcompare : comparesTexts c = true) : stage.onComparison.Grounded (trace ++ [.call c]) := by
  have hnegation := h.branch_mem [.call c]
  cases stage with
  | idle loaded => simp [Grounded, Stage.onComparison, pendingNegation]
  | pathRead negated => exact ⟨hnegation, h.2.append _⟩
  | constant text negated => exact ⟨hnegation, h.2.1.compares h.2.2 hcompare⟩
  | awaitBranch text negated => exact ⟨hnegation, h.2.append _⟩

theorem Grounded.onOtherCall (h : stage.Grounded trace) (c : Call) :
    stage.onOtherCall.Grounded (trace ++ [.call c]) := by
  have hnegation := h.branch_mem [.call c]
  cases stage with
  | idle loaded => simp [Grounded, Stage.onOtherCall, pendingNegation]
  | pathRead negated => exact ⟨hnegation, h.2.append _⟩
  | constant text negated => exact ⟨hnegation, h.2.2.append _⟩
  | awaitBranch text negated => exact ⟨hnegation, h.2.append _⟩

theorem Grounded.next (h : stage.Grounded trace) (event : Event) :
    (stage.next event).Grounded (trace ++ [event]) := by
  cases event with
  | constant text => exact h.onConstant text
  | branch branch => exact h.onBranch branch
  | call c =>
    rw [Stage.next]
    by_cases hread : readsPath c = true
    · rw [if_pos hread]
      exact h.onPathRead hread
    · rw [if_neg hread]
      by_cases hcompare : comparesTexts c = true
      · rw [if_pos hcompare]
        exact h.onComparison hcompare
      · rw [if_neg hcompare]
        exact h.onOtherCall c

/-- An event that settles a comparison is read from the stage behind it, in which nothing is
remembered. -/
theorem Grounded.step (h : stage.Grounded trace) (event : Event) :
    (stage.step event).Grounded (trace ++ [event]) := by
  have hnext := h.settle.next event
  cases stage with
  | awaitBranch text negated =>
    cases event with
    | branch branch => simp [Grounded, Stage.step, pendingNegation]
    | _ => exact hnext
  | _ => exact hnext

end Stage

theorem grounded_stageAfter (trace : List Event) : (stageAfter trace).Grounded trace := by
  induction trace using List.reverseRecOn with
  | nil => simp [stageAfter, Stage.Grounded, Stage.pendingNegation]
  | append_singleton trace event ih =>
    rw [stageAfter_concat]
    exact ih.step event

/-! ## Evidence for patterns -/

/-- A pattern that the trace gives reason for. -/
def Warranted (trace : List Event) (pattern : String) : Prop :=
  Compares trace pattern ∨ pattern = Route.wildcard ∧ .branch true ∈ trace

theorem Warranted.append {trace : List Event} {pattern : String} (h : Warranted trace pattern)
    (more : List Event) : Warranted (trace ++ more) pattern := by
  rcases h with hcompared | ⟨heq, hbranch⟩
  · exact .inl (hcompared.append more)
  · exact .inr ⟨heq, List.mem_append_left _ hbranch⟩

private theorem nodup_addPattern {patterns : List String} (h : patterns.Nodup) (pattern : String) :
    (addPattern pattern patterns).Nodup := by
  rw [addPattern]
  split
  · exact h
  · next hnew =>
    have hnot : pattern ∉ patterns := by simpa using hnew
    exact h.append (List.nodup_singleton _) (List.disjoint_singleton.mpr hnot)

private theorem mem_addPattern {p pattern : String} {patterns : List String}
    (h : p ∈ addPattern pattern patterns) : p = pattern ∨ p ∈ patterns := by
  rw [addPattern] at h
  split at h
  · exact .inr h
  · exact (List.mem_append.mp h).symm.imp_left List.mem_singleton.mp

/-- Settling a comparison adds a pattern that the trace warrants. -/
theorem warranted_of_awaitBranch {trace : List Event} {text : String} {negated negated' : Bool}
    (h : (Stage.awaitBranch text negated).Grounded trace)
    (hnegated : negated' = true → .branch true ∈ trace) :
    Warranted trace (if negated' then Route.wildcard else text) := by
  cases negated' with
  | true => exact .inr ⟨rfl, hnegated rfl⟩
  | false => exact .inl h.2

/-- A matcher holds each pattern once, and the trace warrants all of them. -/
def PathMatcher.Justified (trace : List Event) (m : PathMatcher) : Prop :=
  m.patterns.Nodup ∧ ∀ pattern ∈ m.patterns, Warranted trace pattern

namespace PathMatcher

variable {trace : List Event} {m : PathMatcher}

theorem Justified.append (h : m.Justified trace) (more : List Event) :
    m.Justified (trace ++ more) :=
  ⟨h.1, fun pattern hmem => (h.2 pattern hmem).append more⟩

theorem Justified.emit (h : m.Justified trace) {text : String} {negated : Bool}
    (hwarranted : Warranted trace (if negated then Route.wildcard else text)) :
    (m.emit text negated).Justified trace := by
  refine ⟨nodup_addPattern h.1 _, ?_⟩
  intro pattern hmem
  rcases mem_addPattern hmem with rfl | hold
  · exact hwarranted
  · exact h.2 pattern hold

theorem Justified.settle (h : m.Justified trace) (hstage : m.stage.Grounded trace) :
    m.settle.Justified trace := by
  rw [PathMatcher.settle]
  split
  · next text negated heq =>
    rw [heq] at hstage
    exact h.emit (warranted_of_awaitBranch hstage hstage.1)
  · exact h

theorem Justified.feed (h : m.Justified trace) (hstage : m.stage.Grounded trace) (event : Event) :
    (m.feed event).Justified (trace ++ [event]) := by
  have hsettle := (h.settle hstage).append [event]
  cases hm : m.stage with
  | awaitBranch text negated =>
    rw [PathMatcher.settle, hm] at hsettle
    rw [hm] at hstage
    cases event with
    | branch branch =>
      simp only [PathMatcher.feed, hm]
      have hcompared : Compares (trace ++ [.branch branch]) text := hstage.2.append _
      refine (h.append [.branch branch]).emit ?_
      -- The branch that settles a comparison is itself part of the trace.
      cases hnegated : (negated || branch) with
      | false => exact .inl hcompared
      | true =>
        refine .inr ⟨rfl, ?_⟩
        rcases (Bool.or_eq_true _ _).mp hnegated with hold | hnew
        · exact List.mem_append_left _ (hstage.1 hold)
        · simp [hnew]
    | constant text' =>
      simp only [PathMatcher.feed, hm]
      exact hsettle
    | call c =>
      simp only [PathMatcher.feed, hm]
      exact hsettle
  | _ =>
    have hpatterns : (m.feed event).patterns = m.patterns := by
      simp only [PathMatcher.feed, hm]
    have hold := h.append [event]
    rw [Justified, ← hpatterns] at hold
    exact hold

theorem justified_foldl_feed (trace : List Event) :
    (trace.foldl PathMatcher.feed {}).Justified trace := by
  induction trace using List.reverseRecOn with
  | nil => simp [Justified]
  | append_singleton trace event ih =>
    rw [List.foldl_append]
    exact ih.feed (grounded_stageAfter trace) event

end PathMatcher

private theorem justified_matchPaths (trace : List Event) :
    (matchPaths trace).Nodup ∧ ∀ pattern ∈ matchPaths trace, Warranted trace pattern := by
  have hsettle := (PathMatcher.justified_foldl_feed trace).settle (grounded_stageAfter trace)
  rw [PathMatcher.Justified, PathMatcher.settle_patterns] at hsettle
  exact hsettle

/-- **Path checks are sound.** Whatever the trace, a matcher with independent fields always finds a
text to settle, its fields fit each other and it gives the same patterns, each once. A text among
them was compared right after it was loaded, but for reads of the path and branches, and after the
path had been read. The wildcard comes from a negated branch or was itself a constant. -/
theorem matchPaths_sound (trace : List Event) :
    (∃ m, trace.foldlM LooseMatcher.feed {} = some m ∧ m.Consistent ∧ m.patterns.Nodup ∧
      m.finish = some (matchPaths trace)) ∧
    (matchPaths trace).Nodup ∧
    (∀ text ∈ matchPaths trace, text ≠ Route.wildcard → Compares trace text) ∧
    (Route.wildcard ∈ matchPaths trace →
      .branch true ∈ trace ∨ .constant Route.wildcard ∈ trace) := by
  obtain ⟨hnodup, hwarranted⟩ := justified_matchPaths trace
  refine ⟨⟨(trace.foldl PathMatcher.feed {}).loosen, ?_, ?_, ?_, ?_⟩, hnodup, ?_, ?_⟩
  · exact PathMatcher.foldlM_loosen {} trace
  · exact PathMatcher.consistent_loosen _
  · exact (PathMatcher.justified_foldl_feed trace).1
  · exact PathMatcher.finish_loosen _
  · intro text hmem hne
    rcases hwarranted text hmem with hcompared | ⟨heq, -⟩
    · exact hcompared
    · exact absurd heq hne
  · intro hmem
    rcases hwarranted _ hmem with hcompared | ⟨-, hbranch⟩
    · exact .inr hcompared.constant_mem
    · exact .inl hbranch

end EndpointAudit.Filter
