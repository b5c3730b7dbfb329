import EndpointAudit.Filter.Cached
import EndpointAudit.Proofs.ClassPath.Cache
import EndpointAudit.Proofs.Filter.Requests

/-!
# Requests to both memories

A scan remembers the filter types it has analysed and the classes it has parsed for them. What is
asked for, and what is then known, is the same as without parsed classes: the walk over filters only
asks for coverage, an analysis only loads classes, and loading through a faithful cache finds what
is on the class path.
-/

namespace EndpointAudit.Filter

open ClassPath

variable (cp : ClassPath) (settings : Settings)

/-! ## One analysis -/

private theorem transparent_traceFirstCached (inlineLambdas : Bool) (filterType : String)
    (reason : Unavailable) (methods : List String) :
    Transparent cp (traceFirstCached cp inlineLambdas filterType reason methods)
      (traceFirst cp inlineLambdas filterType reason methods) := by
  induction methods generalizing reason with
  | nil => exact transparent_throw _
  | cons methodName rest ih =>
    have hcatch : traceFirst cp inlineLambdas filterType reason (methodName :: rest) =
        tryCatch (cp.trace filterType methodName none inlineLambdas)
          (goOn fun reason => traceFirst cp inlineLambdas filterType reason rest) := by
      rw [traceFirst]
      cases cp.trace filterType methodName none inlineLambdas with
      | ok trace => rfl
      | error e =>
        cases e with
        | fatal e => rfl
        | unavailable reason => cases reason <;> rfl
    rw [hcatch, traceFirstCached]
    apply (transparent_traceCached cp filterType methodName none inlineLambdas).tryCatch
    intro e
    cases e with
    | fatal e => exact transparent_throw _
    | unavailable reason =>
      cases reason with
      | typeNotFound t => exact transparent_throw _
      | _ => exact ih _

private theorem transparent_fieldStringsCached (filterType : String) :
    Transparent cp (fieldStringsCached cp filterType) (.ok (fieldStringsOf cp filterType)) := by
  have hcatch : Except.ok (fieldStringsOf cp filterType) =
      tryCatch (do return Trace.fieldStrings (← cp.load filterType)) fun _ =>
        (.ok [] : Except LoadError (List (String × String))) := by
    rw [fieldStringsOf]
    cases cp.load filterType <;> rfl
  rw [hcatch]
  apply Transparent.tryCatch
  · exact (transparent_loadCached cp filterType).bind fun cls => transparent_pure _
  · exact fun _ => transparent_pure _

private theorem transparent_analyzeCached (filterType : String) :
    Transparent cp (analyzeCached cp settings filterType)
      ((analyze cp settings filterType).mapError .fatal) := by
  have hcatch : (analyze cp settings filterType).mapError LoadError.fatal =
      tryCatch (do
        let trace ← requestTrace cp settings filterType
        let fields ← .ok (fieldStringsOf cp filterType)
        return (.ofTrace filterType trace fields,
          [.filterAnalyzed filterType (matchPaths trace)])) (makeDo filterType) := by
    rw [analyze]
    cases requestTrace cp settings filterType with
    | ok trace => rfl
    | error e => cases e <;> rfl
  rw [hcatch]
  apply Transparent.tryCatch
  · apply (transparent_traceFirstCached cp _ _ _ _).bind
    intro trace
    exact (transparent_fieldStringsCached cp filterType).bind fun fields => transparent_pure _
  · intro e
    cases e with
    | unavailable reason => exact transparent_pure _
    | fatal e => exact transparent_throw _

/-! ## One memory for two -/

/-- From a faithful cache, the program with both memories answers as the other one does with its
memory, leaves that memory as the other one does, and a faithful cache. -/
def Couples {α : Type} (program : CachedAnalysis α) (plain : Analysis α) : Prop :=
  ∀ memories : Memories, memories.cache.Faithful cp →
    ∃ cache', program.run memories =
        ((plain.run memories.memo).1.mapError .fatal, ⟨(plain.run memories.memo).2, cache'⟩) ∧
      cache'.Faithful cp ∧ memories.cache.Extends cache'

section Couples

variable {cp} {α β : Type}

theorem couples_pure (a : α) : Couples cp (pure a) (pure a) :=
  fun memories hcache => ⟨memories.cache, rfl, hcache, .refl _⟩

theorem Couples.bind {x : CachedAnalysis α} {y : Analysis α} {f : α → CachedAnalysis β}
    {g : α → Analysis β} (hx : Couples cp x y) (hf : ∀ a, Couples cp (f a) (g a)) :
    Couples cp (x >>= f) (y >>= g) := by
  intro memories hcache
  obtain ⟨between, hrun, hbetween, hext⟩ := hx memories hcache
  cases hplain : y.run memories.memo with
  | mk answer memo =>
    rw [hplain] at hrun
    cases answer with
    | error e =>
      refine ⟨between, ?_, hbetween, hext⟩
      rw [run_bind_error hrun, run_bind_error hplain]
      rfl
    | ok a =>
      obtain ⟨last, hrun', hlast, hext'⟩ := hf a ⟨memo, between⟩ hbetween
      refine ⟨last, ?_, hlast, hext.trans hext'⟩
      rw [run_bind hrun, run_bind hplain]
      exact hrun'

end Couples

theorem couples_coverageCached (filterType : String) :
    Couples cp (coverageCached cp settings filterType) (coverage cp settings filterType) := by
  intro memories hcache
  have hget : (get : CachedAnalysis Memories).run memories = (.ok memories, memories) := rfl
  have hmemo : (get : Analysis Memo).run memories.memo = (.ok memories.memo, memories.memo) := rfl
  rw [coverageCached, run_bind hget, coverage, run_bind hmemo]
  cases Assoc.get? filterType memories.memo.known with
  | some found => exact ⟨memories.cache, rfl, hcache, .refl _⟩
  | none =>
    obtain ⟨cache', hrun, hfaithful, hext⟩ :=
      transparent_analyzeCached cp settings filterType memories.cache hcache
    refine ⟨cache', ?_, hfaithful, hext⟩
    dsimp only
    rw [hrun]
    cases analyze cp settings filterType <;> rfl

/-! ## A walk and all requests -/

private theorem couples_visitWith {ask : String → CachedAnalysis Coverage}
    {ask' : String → Analysis Coverage} (hask : ∀ t, Couples cp (ask t) (ask' t)) (steps : Nat)
    (waiting : List String) (found : List (String × Coverage)) :
    Couples cp (visitWith ask steps waiting found) (visitWith ask' steps waiting found) := by
  induction steps generalizing waiting found with
  | zero => exact couples_pure found
  | succ steps ih =>
    rw [visitWith, visitWith]
    cases waiting.dropWhile (Assoc.hasKey · found) with
    | nil => exact couples_pure found
    | cons filterType rest => exact (hask filterType).bind fun result => ih _ _

/-- The coverage of the types that are asked for, with both memories. -/
def Request.answerCached : Request → CachedAnalysis (List (String × Coverage))
  | .one filterType => do return [(filterType, ← coverageCached cp settings filterType)]
  | .all filterTypes => coverageOfAllCached cp settings filterTypes

private theorem Request.couples_answerCached (request : Request) :
    Couples cp (request.answerCached cp settings) (request.answer cp settings) := by
  cases request with
  | one filterType =>
    exact (couples_coverageCached cp settings filterType).bind fun found => couples_pure _
  | all filterTypes =>
    exact couples_visitWith cp (couples_coverageCached cp settings) _ filterTypes []

/-- Answers requests one after the other with both memories. -/
def serveCached : List Request → Memories →
    List (Except LoadError (List (String × Coverage))) × Memories
  | [], memories => ([], memories)
  | request :: rest, memories =>
    let (found, between) := (request.answerCached cp settings).run memories
    let (answers, last) := serveCached rest between
    (found :: answers, last)

/-- **Parsed classes are transparent to requests.** However requests follow each other, the answers
and what is known of filters are the same with and without parsed classes, and every class is
parsed once at most. -/
theorem serveCached_eq (requests : List Request) {memories : Memories}
    (hcache : memories.cache.Faithful cp) :
    ∃ cache', serveCached cp settings requests memories =
        ((serve cp settings requests memories.memo).1.map (·.mapError .fatal),
          ⟨(serve cp settings requests memories.memo).2, cache'⟩) ∧
      cache'.Faithful cp ∧ memories.cache.Extends cache' := by
  induction requests generalizing memories with
  | nil => exact ⟨memories.cache, rfl, hcache, .refl _⟩
  | cons request rest ih =>
    obtain ⟨between, hrun, hbetween, hext⟩ :=
      request.couples_answerCached cp settings memories hcache
    obtain ⟨last, hrest, hlast, hext'⟩ :=
      @ih ⟨((request.answer cp settings).run memories.memo).2, between⟩ hbetween
    refine ⟨last, ?_, hlast, hext.trans hext'⟩
    rw [serveCached, hrun, serve]
    simp only [hrest]
    rfl

end EndpointAudit.Filter
