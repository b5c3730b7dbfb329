import EndpointAudit.Filter.PathCheck
import Mathlib.Data.List.Infix

/-!
# Path checks behind any trace

A check in its usual order (the path is read, a constant is loaded, the two are compared and a
branch tests the outcome) gives its pattern whatever the trace in front of it did, with one
exception. A check that the trace has begun and not finished stays open when the path is read
again, and a negated branch seen inside it decides the comparison that is made in the end.
-/

namespace EndpointAudit.Filter

/-- Patterns with one more, unless it is among them. -/
def addPattern (pattern : String) (patterns : List String) : List String :=
  if patterns.contains pattern then patterns else patterns ++ [pattern]

/-! ## Stages -/

namespace Stage

/-- Whether the path has been read for a comparison that is still to be made. -/
def isOpen : Stage → Bool
  | .pathRead _ | .constant .. => true
  | .idle _ | .awaitBranch .. => false

/-- The stage once a comparison that has been made is settled. -/
def settle : Stage → Stage
  | .awaitBranch .. => .idle none
  | stage => stage

/-- The stage after an event, which settles a comparison that has been made. -/
def step (event : Event) (stage : Stage) : Stage :=
  match stage, event with
  | .awaitBranch .., .branch _ => .idle none
  | stage, event => stage.settle.next event

private theorem pendingNegation_settle (stage : Stage) :
    stage.settle.pendingNegation = (stage.isOpen && stage.pendingNegation) := by
  cases stage <;> simp [settle, isOpen, pendingNegation]

private theorem step_of_isOpen {stage : Stage} (h : stage.isOpen = true) (event : Event) :
    stage.step event = stage.next event := by
  cases stage <;> simp_all [step, settle, isOpen]

/-- Only reading the path opens a check, and no negation is pending then. -/
theorem isOpen_step {stage : Stage} {event : Event} (hclosed : stage.isOpen = false)
    (hopen : (stage.step event).isOpen = true) :
    (∃ c, event = .call c ∧ readsPath c = true) ∧
      (stage.step event).pendingNegation = false := by
  have hidle : ∃ loaded, stage.settle = .idle loaded := by
    cases stage with
    | idle loaded => exact ⟨loaded, rfl⟩
    | awaitBranch text negated => exact ⟨none, rfl⟩
    | pathRead negated => simp [isOpen] at hclosed
    | constant text negated => simp [isOpen] at hclosed
  obtain ⟨loaded, hidle⟩ := hidle
  have hstep : stage.step event = (Stage.idle loaded).next event := by
    rw [← hidle]
    cases event with
    | branch negated => cases stage <;> simp_all [step, settle, next, onBranch]
    | constant text => cases stage <;> rfl
    | call c => cases stage <;> rfl
  rw [hstep] at hopen ⊢
  cases event with
  | constant text => simp [next, onConstant, isOpen] at hopen
  | branch negated => simp [next, onBranch, isOpen] at hopen
  | call c =>
    by_cases hread : readsPath c = true
    · refine ⟨⟨c, rfl, hread⟩, ?_⟩
      cases loaded <;> simp [next, hread, onPathRead, pendingNegation]
    · by_cases hcompare : comparesTexts c = true <;>
        simp [next, hread, hcompare, onComparison, onOtherCall, isOpen] at hopen

/-- While a check stays open its negation is that of the branches seen. -/
theorem pendingNegation_next {stage : Stage} {event : Event} (hbefore : stage.isOpen = true)
    (hafter : (stage.next event).isOpen = true) :
    (stage.next event).pendingNegation =
      (stage.pendingNegation || decide (.branch true = event)) := by
  cases event with
  | constant text => cases stage <;> simp_all [next, onConstant, isOpen, pendingNegation]
  | branch negated =>
    cases stage <;> cases negated <;> simp_all [next, onBranch, isOpen, pendingNegation]
  | call c =>
    by_cases hread : readsPath c = true
    · cases stage <;> simp_all [next, onPathRead, isOpen, pendingNegation]
    · by_cases hcompare : comparesTexts c = true <;> cases stage <;>
        simp_all [next, onComparison, onOtherCall, isOpen, pendingNegation]

end Stage

/-! ## Runs -/

namespace PathMatcher

private theorem feed_stage (m : PathMatcher) (event : Event) :
    (m.feed event).stage = m.stage.step event := by
  obtain ⟨stage, patterns⟩ := m
  cases stage <;> cases event <;> rfl

/-- The matcher once a comparison that has been made is settled. -/
def settle (m : PathMatcher) : PathMatcher :=
  match m.stage with
  | .awaitBranch text negated => m.emit text negated
  | _ => m

theorem settle_stage (m : PathMatcher) : m.settle.stage = m.stage.settle := by
  obtain ⟨stage, patterns⟩ := m
  cases stage <;> rfl

theorem settle_patterns (m : PathMatcher) : m.settle.patterns = m.finish := by
  obtain ⟨stage, patterns⟩ := m
  cases stage <;> rfl

private theorem feed_call (m : PathMatcher) (c : Call) :
    m.feed (.call c) = { m.settle with stage := m.settle.stage.next (.call c) } := by
  obtain ⟨stage, patterns⟩ := m
  cases stage <;> rfl

end PathMatcher

theorem not_readsPath {c : Call} (h : comparesTexts c = true) : readsPath c = false := by
  simp only [comparesTexts, List.contains_eq_mem, decide_eq_true_eq, List.mem_cons,
    List.not_mem_nil, or_false] at h
  rcases h with h | h | h <;> simp [readsPath, h]

/-- The events of a check in their usual order. -/
def checkOf (read compare : Call) (text : String) (negated : Bool) : List Event :=
  [.call read, .constant text, .call compare, .branch negated]

/-- A check settles what was open and then emits its own pattern. -/
theorem foldl_feed_checkOf (m : PathMatcher) {read compare : Call} (text : String)
    (negated : Bool) (hread : readsPath read = true) (hcompare : comparesTexts compare = true) :
    (checkOf read compare text negated).foldl PathMatcher.feed m =
      m.settle.emit text (m.settle.stage.pendingNegation || negated) := by
  have hother := not_readsPath hcompare
  have hsettled : ∀ t n, m.settle.stage ≠ .awaitBranch t n := by
    intro t n
    rw [m.settle_stage]
    cases m.stage <;> simp [Stage.settle]
  have hopened : ∃ stage, m.settle.stage.next (.call read) = stage ∧ stage.isOpen = true ∧
      stage.pendingNegation = m.settle.stage.pendingNegation := by
    refine ⟨_, rfl, ?_⟩
    simp only [Stage.next, hread, if_true]
    cases hstage : m.settle.stage with
    | idle loaded => cases loaded <;> simp [Stage.onPathRead, Stage.isOpen, Stage.pendingNegation]
    | pathRead n => simp [Stage.onPathRead, Stage.isOpen]
    | constant t n => simp [Stage.onPathRead, Stage.isOpen]
    | awaitBranch t n => exact absurd hstage (hsettled t n)
  obtain ⟨stage, hnext, hopen, hpending⟩ := hopened
  simp only [checkOf, List.foldl_cons, List.foldl_nil, PathMatcher.feed_call m, hnext, ← hpending]
  -- With the check open, constant, comparison and branch follow one after the other.
  cases stage with
  | idle loaded => simp [Stage.isOpen] at hopen
  | awaitBranch t n => simp [Stage.isOpen] at hopen
  | pathRead n =>
    simp [PathMatcher.feed, Stage.next, Stage.onConstant, Stage.onComparison, hother, hcompare,
      PathMatcher.emit, Stage.pendingNegation]
  | constant t n =>
    simp [PathMatcher.feed, Stage.next, Stage.onConstant, Stage.onComparison, hother, hcompare,
      PathMatcher.emit, Stage.pendingNegation]

/-- The stage behind a trace. -/
def stageAfter (trace : List Event) : Stage := (trace.foldl PathMatcher.feed {}).stage

theorem stageAfter_concat (trace : List Event) (event : Event) :
    stageAfter (trace ++ [event]) = (stageAfter trace).step event := by
  rw [stageAfter, List.foldl_append]
  exact PathMatcher.feed_stage _ event

/-- A trace has begun a check and not finished it: the path is read while no check is open, and
through all of `inside`, which follows, the check stays open. -/
def LeavesOpen (trace inside : List Event) : Prop :=
  ∃ before read, trace = before ++ .call read :: inside ∧ readsPath read = true ∧
    (stageAfter before).isOpen = false ∧
    ∀ part, part <+: inside → (stageAfter (before ++ .call read :: part)).isOpen = true

private theorem exists_leavesOpen {trace : List Event} (h : (stageAfter trace).isOpen = true) :
    ∃ inside, LeavesOpen trace inside := by
  induction trace using List.reverseRecOn with
  | nil => simp [stageAfter, Stage.isOpen] at h
  | append_singleton trace event ih =>
    by_cases hbefore : (stageAfter trace).isOpen = true
    · obtain ⟨inside, before, read, rfl, hread, hclosed, hopen⟩ := ih hbefore
      refine ⟨inside ++ [event], before, read, by simp, hread, hclosed, ?_⟩
      intro part hpart
      rcases List.prefix_concat_iff.mp hpart with rfl | hpart
      · simpa using h
      · exact hopen part hpart
    · have hclosed : (stageAfter trace).isOpen = false := by simpa using hbefore
      rw [stageAfter_concat] at h
      obtain ⟨⟨read, rfl, hread⟩, -⟩ := Stage.isOpen_step hclosed h
      refine ⟨[], trace, read, rfl, hread, hclosed, ?_⟩
      intro part hpart
      rw [List.prefix_nil.mp hpart, stageAfter_concat]
      exact h

theorem LeavesOpen.pendingNegation {trace inside : List Event} (h : LeavesOpen trace inside) :
    (stageAfter trace).isOpen = true ∧
      (stageAfter trace).pendingNegation = inside.contains (.branch true) := by
  obtain ⟨before, read, rfl, hread, hclosed, hopen⟩ := h
  refine ⟨hopen inside (List.prefix_refl inside), ?_⟩
  -- The negation is carried from one part of `inside` to the next.
  induction inside using List.reverseRecOn with
  | nil =>
    have h := hopen [] (List.prefix_refl [])
    rw [stageAfter_concat] at h ⊢
    exact (Stage.isOpen_step hclosed h).2
  | append_singleton inside event ih =>
    have hparts : ∀ part, part <+: inside →
        (stageAfter (before ++ .call read :: part)).isOpen = true :=
      fun part hpart => hopen part (hpart.trans (List.prefix_append inside [event]))
    have hinside := hparts inside (List.prefix_refl inside)
    have hall := hopen (inside ++ [event]) (List.prefix_refl _)
    have hsplit : before ++ .call read :: (inside ++ [event]) =
        (before ++ .call read :: inside) ++ [event] := by simp
    rw [hsplit, stageAfter_concat, Stage.step_of_isOpen hinside] at hall ⊢
    rw [Stage.pendingNegation_next hinside hall, ih hparts]
    simp

/-- A check gives its own pattern, except behind a check that has been left open and in which a
negated branch was seen: it gives the wildcard then. -/
theorem matchPaths_append_check (trace : List Event) {read compare : Call} (text : String)
    (negated : Bool) (hread : readsPath read = true) (hcompare : comparesTexts compare = true) :
    (∀ inside, LeavesOpen trace inside → .branch true ∈ inside →
      matchPaths (trace ++ checkOf read compare text negated) =
        addPattern Route.wildcard (matchPaths trace)) ∧
    ((∀ inside, LeavesOpen trace inside → .branch true ∉ inside) →
      matchPaths (trace ++ checkOf read compare text negated) =
        addPattern (if negated then Route.wildcard else text) (matchPaths trace)) := by
  have hrun : matchPaths (trace ++ checkOf read compare text negated) =
      addPattern (if ((stageAfter trace).isOpen && (stageAfter trace).pendingNegation) || negated
        then Route.wildcard else text) (matchPaths trace) := by
    rw [matchPaths, List.foldl_append, foldl_feed_checkOf _ text negated hread hcompare,
      PathMatcher.settle_stage, Stage.pendingNegation_settle]
    show addPattern _ (PathMatcher.settle _).patterns = _
    rw [PathMatcher.settle_patterns]
    rfl
  constructor
  · intro inside hopen hmem
    obtain ⟨hisOpen, hpending⟩ := hopen.pendingNegation
    rw [hrun, hisOpen, hpending]
    simp [hmem]
  · intro hclear
    have hnone : ((stageAfter trace).isOpen && (stageAfter trace).pendingNegation) = false := by
      by_cases hisOpen : (stageAfter trace).isOpen = true
      · obtain ⟨inside, hopen⟩ := exists_leavesOpen hisOpen
        rw [hopen.pendingNegation.2]
        simp [hclear inside hopen]
      · simp [hisOpen]
    rw [hrun, hnone, Bool.false_or]

/-- A call that reads the path. -/
def uriCall : Call :=
  ⟨"jakarta.servlet.http.HttpServletRequest", "getRequestURI", "()Ljava/lang/String;"⟩

/-- A call that compares two texts. -/
def equalsCall : Call := ⟨"java.lang.String", "equals", "(Ljava/lang/Object;)Z"⟩

/-- A negated check that has been finished. -/
def finishedTrace : List Event := checkOf uriCall equalsCall "/health" true

/-- The path is read for something else, and the outcome is tested by a negated branch. -/
def strayTrace : List Event := [.call uriCall, .branch true]

private theorem leavesOpen_strayTrace : LeavesOpen strayTrace [.branch true] := by
  refine ⟨[], uriCall, rfl, by decide, by decide, ?_⟩
  intro part hpart
  rcases List.prefix_cons_iff.mp hpart with rfl | ⟨rest, rfl, hrest⟩
  · decide
  · rw [List.prefix_nil.mp hrest]
    decide

theorem matchPaths_append_check_traces :
    matchPaths (finishedTrace ++ checkOf uriCall equalsCall "/admin" false) = ["*", "/admin"] ∧
      matchPaths (strayTrace ++ checkOf uriCall equalsCall "/admin" false) = ["*"] := by
  have hread : readsPath uriCall = true := by decide
  have hcompare : comparesTexts equalsCall = true := by decide
  constructor
  · have hclosed : ∀ inside, ¬ LeavesOpen finishedTrace inside := by
      intro inside hopen
      have hstage : (stageAfter finishedTrace).isOpen = false := by decide
      rw [hopen.pendingNegation.1] at hstage
      contradiction
    rw [(matchPaths_append_check finishedTrace "/admin" false hread hcompare).2
      fun inside hopen => absurd hopen (hclosed inside)]
    decide
  · rw [(matchPaths_append_check strayTrace "/admin" false hread hcompare).1 [.branch true]
      leavesOpen_strayTrace (by simp)]
    decide

/-- A negated branch seen before the path is read decides the comparison. -/
theorem matchPaths_strayNegation :
    readsPath uriCall = true ∧ comparesTexts equalsCall = true ∧
      "/admin" ∉ matchPaths (strayTrace ++ checkOf uriCall equalsCall "/admin" false) := by
  decide

end EndpointAudit.Filter
