import EndpointAudit.Proofs.ClassFile.Layout
import EndpointAudit.Proofs.Filter.Worklist
import EndpointAudit.Proofs.Trace.Owners

/-!
# Requests to one memory

Callers ask for the coverage of one filter type, or of filter types and all filters that they make
use of, and share one memory. The memory is never seen in the answers: it only saves the analysis
of types that have been asked for before.
-/

namespace EndpointAudit.Filter

/-- What a caller asks for. -/
inductive Request where
  | one (filterType : String)
  /-- The given types and every filter that they make use of. -/
  | all (filterTypes : List String)
deriving DecidableEq, Repr

section Definitions

variable (cp : ClassPath) (settings : Settings)

namespace Request

/-- The coverage of the types that are asked for. -/
def answer : Request → Analysis (List (String × Coverage))
  | .one filterType => do return [(filterType, ← coverage cp settings filterType)]
  | .all filterTypes => coverageOfAll cp settings filterTypes

/-- Whether a type is asked for, by name or as a filter that another one makes use of. -/
def Covers : Request → String → Prop
  | .one filterType, t => t = filterType
  | .all filterTypes, t => Reaches cp settings filterTypes t

/-- The types for which the memory is looked into, in order. -/
def lookups : Request → List String
  | .one filterType => [filterType]
  | .all filterTypes =>
    asked cp settings (filterTypes.length + (referencedTypes cp).length) filterTypes []

end Request

/-- Answers requests one after the other. A request that fails does not keep the next ones from
being answered. -/
def serve : List Request → Memo → List (Except ScanError (List (String × Coverage))) × Memo
  | [], memo => ([], memo)
  | request :: rest, memo =>
    let (found, between) := (request.answer cp settings).run memo
    let (answers, last) := serve rest between
    (found :: answers, last)

/-- The notice that a type cannot be analysed. -/
def warning? (filterType : String) : Option Notice :=
  match requestTrace cp settings filterType with
  | .error (.unavailable reason) => some (.filterUnavailable filterType reason)
  | _ => none

/-- The remark on a type that can be analysed. -/
def remark? (filterType : String) : Option Notice :=
  match requestTrace cp settings filterType with
  | .ok trace => some (.filterAnalyzed filterType (matchPaths trace))
  | .error _ => none

end Definitions

variable {cp : ClassPath} {settings : Settings}

/-! ## Notices -/

/-- An analysis tells one thing: that it failed, or what it has found. -/
theorem told_of_analyze {filterType : String} {found : Coverage} {told : List Notice}
    (h : analyze cp settings filterType = .ok (found, told)) :
    Log.ofNotices told = { notices := (warning? cp settings filterType).toList
                           remarks := (remark? cp settings filterType).toList } ∧
      (warning? cp settings filterType).toList.length +
        (remark? cp settings filterType).toList.length = 1 := by
  unfold analyze at h
  unfold warning? remark?
  split at h
  · next heq =>
    cases h
    rw [heq]
    exact ⟨rfl, rfl⟩
  · next heq =>
    cases h
    rw [heq]
    exact ⟨rfl, rfl⟩
  · cases h

/-- The memory has told the warnings and remarks on the types that it knows, and nothing else. -/
structure Memo.Told (cp : ClassPath) (settings : Settings) (memo : Memo) : Prop where
  notices : memo.notices = memo.types.filterMap (warning? cp settings)
  remarks : memo.remarks = memo.types.filterMap (remark? cp settings)
  /-- One of the two for every type. -/
  one : memo.notices.length + memo.remarks.length = memo.types.length

private theorem Memo.told_empty (cp : ClassPath) (settings : Settings) : Memo.Told cp settings {} :=
  ⟨rfl, rfl, rfl⟩

theorem Memo.Told.learn {memo : Memo} (h : memo.Told cp settings) (filterType : String) :
    (memo.learn cp settings filterType).Told cp settings := by
  rcases memo.learn_cases filterType with ⟨heq, -⟩ | ⟨found, told, -, hfound, heq⟩
  · rw [heq]
    exact h
  · obtain ⟨hlog, hone⟩ := told_of_analyze hfound
    rw [heq]
    constructor
    · rw [types_add, List.filterMap_append, ← h.notices, add_toLog, hlog]
      cases hwarning : warning? cp settings filterType <;> simp [hwarning]
    · rw [types_add, List.filterMap_append, ← h.remarks, add_toLog, hlog]
      cases hremark : remark? cp settings filterType <;> simp [hremark]
    · have hbefore := h.one
      rw [types_add, add_toLog, hlog]
      simp only [Log.append_notices, Log.append_remarks, List.length_append, List.length_singleton]
      omega

theorem Memo.Told.foldl_learn {memo : Memo} (h : memo.Told cp settings) (ts : List String) :
    (ts.foldl (Memo.learn cp settings) memo).Told cp settings :=
  List.foldlRecOn ts _ h fun _ htold t _ => htold.learn t

/-! ## Answers -/

theorem Request.answer_run_eq (request : Request) {memo : Memo}
    (hmemo : memo.Faithful cp settings) :
    (request.answer cp settings).run memo =
      ((request.lookups cp settings).mapM (reading cp settings),
        (request.lookups cp settings).foldl (Memo.learn cp settings) memo) := by
  cases request with
  | one filterType =>
    have hrun := coverage_run_eq hmemo filterType
    cases hreading : reading cp settings filterType with
    | error e =>
      rw [hreading] at hrun
      rw [lookups, List.mapM_cons, hreading]
      exact run_bind_error hrun
    | ok entry =>
      obtain ⟨t, found⟩ := entry
      obtain rfl : t = filterType := (reading_eq_ok_iff.mp hreading).1
      rw [hreading] at hrun
      rw [lookups, List.mapM_cons, hreading]
      exact run_bind hrun
  | all filterTypes =>
    have hmap (found : Except ScanError (List (String × Coverage))) :
        found.map (([] : List (String × Coverage)) ++ ·) = found := by
      cases found <;> rfl
    rw [answer, coverageOfAll, visitAll_run_eq _ _ _ hmemo, hmap]
    rfl

theorem serve_eq (requests : List Request) {memo : Memo} (hmemo : memo.Faithful cp settings) :
    serve cp settings requests memo =
      (requests.map fun request => (request.lookups cp settings).mapM (reading cp settings),
        (requests.flatMap (·.lookups cp settings)).foldl (Memo.learn cp settings) memo) := by
  induction requests generalizing memo with
  | nil => rfl
  | cons request rest ih =>
    have hrest := ih (hmemo.foldl_learn (request.lookups cp settings))
    rw [serve, request.answer_run_eq hmemo]
    simp only [hrest, List.map_cons, List.flatMap_cons, List.foldl_append]

theorem Request.answer_fresh (request : Request) :
    ((request.answer cp settings).run {}).1 =
      (request.lookups cp settings).mapM (reading cp settings) := by
  rw [request.answer_run_eq (Memo.faithful_empty cp settings)]

/-! ## The types that are asked for -/

private theorem exists_trace_of_traceFirst {inlineLambdas : Bool} {filterType : String}
    {reason : Unavailable} {methods : List String} {trace : List Event}
    (h : traceFirst cp inlineLambdas filterType reason methods = .ok trace) :
    ∃ methodName, cp.trace filterType methodName none inlineLambdas = .ok trace := by
  induction methods generalizing reason with
  | nil => cases h
  | cons methodName rest ih =>
    rw [traceFirst] at h
    split at h
    · next heq =>
      cases h
      exact ⟨methodName, heq⟩
    · cases h
    · cases h
    · exact ih h

theorem delegates_subset_referencedTypes {filterType : String} {found : Coverage}
    (h : IsCoverage cp settings filterType found) :
    found.delegates ⊆ referencedTypes cp := by
  obtain ⟨notices, h⟩ := h
  unfold analyze at h
  split at h
  · next trace heq =>
    cases h
    obtain ⟨methodName, htrace⟩ := exists_trace_of_traceFirst heq
    intro d hd
    obtain ⟨event, hevent, hd⟩ := List.mem_filterMap.mp (List.mem_eraseDups.mp hd)
    unfold delegatesIn.constructed at hd
    split at hd
    · split at hd
      · cases hd
        exact ClassPath.owner_mem_referencedTypes htrace hevent
      · cases hd
    · cases hd
  · cases h
    exact List.nil_subset _
  · cases h

private theorem Request.covers_of_mem_lookups {request : Request} {t : String}
    (h : t ∈ request.lookups cp settings) : request.Covers cp settings t := by
  cases request with
  | one filterType => exact List.mem_singleton.mp h
  | all filterTypes => exact reaches_of_mem_asked _ [] (fun t ht => .root ht) h

theorem Request.mem_lookups_of_covers {request : Request} {t : String}
    (hok : ∀ t ∈ request.lookups cp settings, ∃ found, IsCoverage cp settings t found)
    (h : request.Covers cp settings t) : t ∈ request.lookups cp settings := by
  cases request with
  | one filterType => exact List.mem_singleton.mpr h
  | all filterTypes =>
    exact mem_asked_of_reaches (fun _ _ => delegates_subset_referencedTypes) hok h

theorem exists_isCoverage_of_mapM {ts : List String} {entries : List (String × Coverage)}
    (h : ts.mapM (reading cp settings) = .ok entries) :
    ∀ t ∈ ts, ∃ found, IsCoverage cp settings t found := by
  intro t ht
  obtain ⟨entry, -, hentry⟩ := exists_image_of_mapM_eq_ok h ht
  exact ⟨entry.2, (reading_eq_ok_iff.mp hentry).2⟩

theorem mapM_reading_eq_ok (hcp : cp.Intact) (settings : Settings) (ts : List String) :
    ∃ entries, ts.mapM (reading cp settings) = .ok entries := by
  induction ts with
  | nil => exact ⟨[], rfl⟩
  | cons t ts ih =>
    obtain ⟨entries, hentries⟩ := ih
    obtain ⟨found, hfound⟩ := exists_isCoverage hcp settings t
    have hreading : reading cp settings t = .ok (t, found) := reading_eq_ok_iff.mpr ⟨rfl, hfound⟩
    refine ⟨(t, found) :: entries, ?_⟩
    rw [List.mapM_cons, hreading, hentries]
    rfl

private theorem Memo.foldl_learn_eq_self {memo : Memo} {ts : List String}
    (h : ∀ t ∈ ts, memo.learn cp settings t = memo) :
    ts.foldl (Memo.learn cp settings) memo = memo := by
  induction ts with
  | nil => rfl
  | cons t ts ih =>
    rw [List.foldl_cons, h t (by simp)]
    exact ih fun t' ht' => h t' (List.mem_cons_of_mem _ ht')

private theorem Memo.learn_of_mem_types {memo : Memo} {t : String} (h : t ∈ memo.types) :
    memo.learn cp settings t = memo := by
  rcases memo.learn_cases t with ⟨heq, -⟩ | ⟨found, notices, hnew, -⟩
  · exact heq
  · exact absurd h hnew

/-- Types that have been asked for teach the memory nothing when they are asked for again. -/
theorem Memo.foldl_learn_again (memo : Memo) (ts : List String) :
    ts.foldl (Memo.learn cp settings) (ts.foldl (Memo.learn cp settings) memo) =
      ts.foldl (Memo.learn cp settings) memo := by
  apply foldl_learn_eq_self
  intro t ht
  cases hfound : analyze cp settings t with
  | error e => exact learn_of_error hfound
  | ok result => exact learn_of_mem_types (mem_types_foldl_learn.mpr (.inr ⟨ht, _, _, hfound⟩))

/-- What callers can rely on who have been served by one memory, with these answers. -/
structure ServedAlike (cp : ClassPath) (settings : Settings) (requests : List Request)
    (answers : List (Except ScanError (List (String × Coverage)))) (memo : Memo) : Prop where
  /-- Every answer is the one that an empty memory gives. -/
  fresh : answers = requests.map fun request => ((request.answer cp settings).run {}).1
  /-- What was known after some of the requests is still known, in the same order. -/
  kept : ∀ n, (serve cp settings (requests.take n) {}).2.known <+: memo.known
  once : memo.types.Nodup
  /-- Every analysis has been told, and none of them twice. -/
  told : memo.Told cp settings
  /-- Asking for all of it once more adds nothing, not even a notice. -/
  again : serve cp settings requests memo = (answers, memo)
  covered : ∀ t ∈ memo.types, ∃ request ∈ requests, request.Covers cp settings t
  complete : ∀ request ∈ requests,
    (∃ entries, ((request.answer cp settings).run {}).1 = .ok entries) →
      ∀ t, request.Covers cp settings t → t ∈ memo.types

theorem mem_types_serve {requests : List Request} {t : String} :
    t ∈ (serve cp settings requests {}).2.types ↔
      (∃ request ∈ requests, t ∈ request.lookups cp settings) ∧
        ∃ found, IsCoverage cp settings t found := by
  have hnone : t ∉ ({} : Memo).types := by simp [Memo.types]
  rw [serve_eq requests (Memo.faithful_empty cp settings), Memo.mem_types_foldl_learn,
    List.mem_flatMap]
  exact or_iff_right hnone

private theorem known_prefix_serve_take (requests : List Request) (n : Nat) :
    (serve cp settings (requests.take n) {}).2.known <+:
      (serve cp settings requests {}).2.known := by
  have hempty := Memo.faithful_empty cp settings
  have hsplit : requests.flatMap (·.lookups cp settings) =
      (requests.take n).flatMap (·.lookups cp settings) ++
        (requests.drop n).flatMap (·.lookups cp settings) := by
    rw [← List.flatMap_append, List.take_append_drop]
  rw [serve_eq _ hempty, serve_eq _ hempty, hsplit, List.foldl_append]
  exact Memo.known_prefix_foldl_learn _ _

private theorem servedAlike_serve (cp : ClassPath) (settings : Settings) (requests : List Request) :
    ServedAlike cp settings requests (serve cp settings requests {}).1
      (serve cp settings requests {}).2 where
  fresh := by
    rw [serve_eq requests (Memo.faithful_empty cp settings)]
    apply List.map_congr_left
    intro request _
    exact request.answer_fresh.symm
  kept := known_prefix_serve_take requests
  once := by
    have hnone : ({} : Memo).types.Nodup := List.nodup_nil
    rw [serve_eq requests (Memo.faithful_empty cp settings)]
    exact Memo.nodup_types_foldl_learn hnone _
  told := by
    rw [serve_eq requests (Memo.faithful_empty cp settings)]
    exact (Memo.told_empty cp settings).foldl_learn _
  again := by
    have hempty := Memo.faithful_empty cp settings
    rw [serve_eq requests hempty, serve_eq requests (hempty.foldl_learn _),
      Memo.foldl_learn_again]
  covered t ht := by
    obtain ⟨⟨request, hrequest, hlookup⟩, -⟩ := mem_types_serve.mp ht
    exact ⟨request, hrequest, Request.covers_of_mem_lookups hlookup⟩
  complete request hrequest hanswer t ht := by
    obtain ⟨entries, hentries⟩ := hanswer
    rw [request.answer_fresh] at hentries
    have hfound := exists_isCoverage_of_mapM hentries
    have hlookup := Request.mem_lookups_of_covers hfound ht
    exact mem_types_serve.mpr ⟨⟨request, hrequest, hlookup⟩, hfound t hlookup⟩

/-- **A shared memory is transparent.** However requests follow each other, every one is answered as
if it were the first, what is known stays known, and a type is analysed once. What is known are the
types that have been asked for, up to requests that fail, and none fails if all archives can be
opened. -/
theorem shared_memory_transparent (cp : ClassPath) (settings : Settings)
    (requests : List Request) :
    let served := serve cp settings requests {}
    ServedAlike cp settings requests served.1 served.2 ∧
      (cp.Intact → (∀ answer ∈ served.1, ∃ entries, answer = .ok entries) ∧
        ∀ t, t ∈ served.2.types ↔ ∃ request ∈ requests, request.Covers cp settings t) := by
  intro served
  have halike : ServedAlike cp settings requests served.1 served.2 :=
    servedAlike_serve cp settings requests
  refine ⟨halike, fun hcp => ?_⟩
  have hanswer (request : Request) :
      ∃ entries, ((request.answer cp settings).run {}).1 = .ok entries := by
    rw [request.answer_fresh]
    exact mapM_reading_eq_ok hcp settings _
  constructor
  · intro answer hmem
    rw [halike.fresh] at hmem
    obtain ⟨request, -, rfl⟩ := List.mem_map.mp hmem
    exact hanswer request
  · intro t
    refine ⟨halike.covered t, ?_⟩
    rintro ⟨request, hrequest, hcovers⟩
    exact halike.complete request hrequest (hanswer request) t hcovers

/-- A filter that makes use of another one. -/
def linkedClass (own other : String) : ClassLayout where
  minor := 0
  major := 61
  constants := [.utf8 own, .classRef 1, .utf8 "Code", .utf8 "doFilter", .utf8 "()V",
    .utf8 other, .classRef 6, .utf8 "<init>", .nameAndType 8 5, .methodRef 7 9]
  access := 0x21
  name := ⟨2, own⟩
  superName := none
  interfaces := []
  fields := []
  methods := [⟨1, ⟨4, "doFilter"⟩, ⟨5, "()V"⟩,
    [⟨⟨3, "Code"⟩, .code ⟨0, 0, [0xB7, 0, 10, 0xB1], [], []⟩⟩]⟩]
  attributes := []

/-- Two filters that make use of each other. -/
def linkedPath : ClassPath :=
  ⟨[⟨"classes", .folder [(["AFilter.class"], (linkedClass "AFilter" "BFilter").encode),
    (["BFilter.class"], (linkedClass "BFilter" "AFilter").encode)] []⟩]⟩

def linkedRequests : List Request :=
  [.one "CFilter", .all ["BFilter", "CFilter"], .one "AFilter"]

private theorem types_linkedRequests : (serve linkedPath { filterMethods := ["doFilter"] }
    linkedRequests {}).2.types = ["CFilter", "BFilter", "AFilter"] := by
  decide +kernel

theorem shared_memory_transparent_linkedPath :
    linkedPath.Intact ∧
    let served := serve linkedPath { filterMethods := ["doFilter"] } linkedRequests {}
    served.2.types = ["CFilter", "BFilter", "AFilter"] ∧
    (∀ answer ∈ served.1, ∃ entries, answer = .ok entries) ∧
    ServedAlike linkedPath { filterMethods := ["doFilter"] } linkedRequests served.1 served.2 := by
  have hintact : linkedPath.Intact := by decide +kernel
  have hserved := shared_memory_transparent linkedPath { filterMethods := ["doFilter"] }
    linkedRequests
  exact ⟨hintact, types_linkedRequests, (hserved.2 hintact).1, hserved.1⟩

end EndpointAudit.Filter
