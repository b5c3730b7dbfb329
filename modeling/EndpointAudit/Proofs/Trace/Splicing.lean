import EndpointAudit.Proofs.Data.Except
import EndpointAudit.Trace.Lambda
import Mathlib.Data.List.Nodup
import Mathlib.Logic.Relation

/-!
# Spliced traces

Splicing goes from a method to the bodies of the lambdas that it calls and on from there, and leaves
a call in place whose body is already around it. So it comes to an end though lambdas may call each
other in a circle: along a chain of enclosing methods no name and descriptor occurs twice. If there
is no circle, every call of a lambda with a body is replaced.
-/

namespace EndpointAudit.Trace

section Definitions

variable (cls : ClassFile)

/-- The first method of the class with the name and descriptor of a call that has code. -/
def bodyOf? (c : Call) : Option Method :=
  cls.methods.find? fun m => m.name == c.name && m.descriptor == c.descriptor && m.code.isSome

/-- The event calls a lambda of the class, and the target is its body. -/
def IsBodyOf (event : Event) (target : Method) : Prop :=
  ∃ c, lambdaCall? cls event = some c ∧ bodyOf? cls c = some target

/-- A trace in which calls of lambdas are replaced by what becomes of their bodies, except where a
body is blocked by the keys of the methods around the call. Everything else stays in place. -/
inductive Expands (blocked : List String → Method → Prop) :
    (enclosing : List String) → (events trace : List Event) → Prop
  | nil {enclosing : List String} : Expands blocked enclosing [] []
  | keep {enclosing : List String} {event : Event} {events trace : List Event}
      (hkeep : ∀ target, IsBodyOf cls event target → blocked enclosing target)
      (rest : Expands blocked enclosing events trace) :
      Expands blocked enclosing (event :: events) (event :: trace)
  | splice {enclosing : List String} {event : Event} {target : Method}
      {own inner events trace : List Event} (hbody : IsBodyOf cls event target)
      (hfree : ¬ blocked enclosing target) (hown : interpret cls target = .ok own)
      (body : Expands blocked (target.key :: enclosing) own inner)
      (rest : Expands blocked enclosing events trace) :
      Expands blocked enclosing (event :: events) (inner ++ trace)

/-- Calls of lambdas are replaced unless their body is around them. -/
def Splices : (enclosing : List String) → (events trace : List Event) → Prop :=
  Expands cls fun enclosing target => target.key ∈ enclosing

/-- Every call of a lambda that has a body is replaced. -/
def Unfolds : (events trace : List Event) → Prop :=
  Expands cls (fun _ _ => False) []

/-- The method calls a lambda with the body `target`. -/
def Refers (method target : Method) : Prop :=
  ∃ events, interpret cls method = .ok events ∧ ∃ event ∈ events, IsBodyOf cls event target

/-- Splicing into `method`, inside the methods `enclosing`, leads on to `m`, inside `chain`. -/
inductive LeadsTo : (enclosing : List String) → (method : Method) → (chain : List String) →
    (m : Method) → Prop
  | here {enclosing : List String} {method : Method} : LeadsTo enclosing method enclosing method
  | body {enclosing chain : List String} {method target m : Method}
      (href : Refers cls method target) (hnew : target.key ∉ method.key :: enclosing)
      (rest : LeadsTo (method.key :: enclosing) target chain m) :
      LeadsTo enclosing method chain m

/-- A reference between methods that are reached from `start`, which are told apart by name and
descriptor only. -/
def KeyRefers (start : Method) (key key' : String) : Prop :=
  ∃ m target, Relation.ReflTransGen (Refers cls) start m ∧ Refers cls m target ∧
    m.key = key ∧ target.key = key'

/-- The lambdas that are reached from `start` do not call each other in a circle. -/
def Acyclic (start : Method) : Prop :=
  ∀ key, ¬ Relation.TransGen (KeyRefers cls start) key key

/-- All lambdas that are called by methods reached from `start` have a body. -/
def HasBodies (start : Method) : Prop :=
  ∀ m, Relation.ReflTransGen (Refers cls) start m → ∀ events, interpret cls m = .ok events →
    ∀ event ∈ events, (lambdaCall? cls event).isSome = true → ∃ target, IsBodyOf cls event target

/-- The number of methods that are not around a call. -/
def room (enclosing : List String) : Nat := (cls.methods.filter (·.key ∉ enclosing)).length

end Definitions

variable {cls : ClassFile}

/-! ## Bodies -/

theorem mem_methods_of_isBodyOf {event : Event} {target : Method}
    (h : IsBodyOf cls event target) : target ∈ cls.methods := by
  obtain ⟨c, -, hbody⟩ := h
  exact List.mem_of_find?_eq_some hbody

theorem IsBodyOf.unique {event : Event} {target target' : Method}
    (h : IsBodyOf cls event target) (h' : IsBodyOf cls event target') : target = target' := by
  obtain ⟨c, hc, hbody⟩ := h
  obtain ⟨c', hc', hbody'⟩ := h'
  rw [hc] at hc'
  cases hc'
  rw [hbody] at hbody'
  exact Option.some.inj hbody'

/-- A look-up by name and descriptor finds a method with code if there is one. -/
theorem findMethod_eq (c : Call) :
    cls.findMethod c.name (some c.descriptor) =
      (bodyOf? cls c).or (cls.methods.find? fun m =>
        m.name == c.name && c.descriptor == m.descriptor) := by
  rw [ClassFile.findMethod, bodyOf?]
  simp only [Option.all_some, List.find?_filter, List.head?_filter]
  congr 2
  funext m
  rw [Bool.beq_comm (a := c.descriptor), Bool.decide_and, Bool.decide_eq_true, Bool.decide_eq_true]

private theorem code_of_bodyOf? {c : Call} {target : Method} (h : bodyOf? cls c = some target) :
    target.code.isSome = true := by
  have hfound := List.find?_some h
  simp only [Bool.and_eq_true] at hfound
  exact hfound.2

private theorem code_of_bodyOf?_eq_none {c : Call} (h : bodyOf? cls c = none) {m : Method}
    (hm : (cls.methods.find? fun m => m.name == c.name && c.descriptor == m.descriptor) = some m) :
    m.code = none := by
  have hnone := List.find?_eq_none.mp h m (List.mem_of_find?_eq_some hm)
  have hfound := List.find?_some hm
  rw [Bool.beq_comm (a := c.descriptor)] at hfound
  simpa [hfound] using hnone

/-- What is spliced in for an event is the body of a lambda, unless it is around the event. -/
theorem spliceTarget?_eq_some_iff {enclosing : List String} {event : Event} {target : Method} :
    spliceTarget? cls enclosing event = some target ↔
      IsBodyOf cls event target ∧ target.key ∉ enclosing := by
  unfold spliceTarget? IsBodyOf
  cases hcall : lambdaCall? cls event with
  | none => simp
  | some c =>
    simp only [Option.bind_eq_bind, Option.bind_some, findMethod_eq]
    cases hbody : bodyOf? cls c with
    | some m =>
      have hcode : m.code ≠ none := Option.isSome_iff_ne_none.mp (code_of_bodyOf? hbody)
      by_cases heq : m = target
      · subst heq
        simp [hbody, hcode]
      · simp [hbody, hcode, heq]
    | none =>
      cases hfound : cls.methods.find?
          fun m => m.name == c.name && c.descriptor == m.descriptor with
      | none => simp [hbody]
      | some m => simp [code_of_bodyOf?_eq_none hbody hfound, hbody]

private theorem spliceTarget?_eq_none_iff {enclosing : List String} {event : Event} :
    spliceTarget? cls enclosing event = none ↔
      ∀ target, IsBodyOf cls event target → target.key ∈ enclosing := by
  rw [Option.eq_none_iff_forall_ne_some]
  simp only [ne_eq, spliceTarget?_eq_some_iff, not_and, not_not]

/-! ## Room -/

theorem room_cons_lt {enclosing : List String} {target : Method} (hmem : target ∈ cls.methods)
    (hnew : target.key ∉ enclosing) : room cls (target.key :: enclosing) < room cls enclosing := by
  have hfilter : cls.methods.filter (·.key ∉ target.key :: enclosing) =
      (cls.methods.filter (·.key ∉ enclosing)).filter (·.key ≠ target.key) := by
    rw [List.filter_filter]
    apply List.filter_congr
    intro m _
    simp
  rw [room, room, hfilter, List.length_filter_lt_length_iff_exists]
  exact ⟨target, List.mem_filter.mpr ⟨hmem, by simpa using hnew⟩, by simp⟩

theorem room_le (cls : ClassFile) (enclosing : List String) :
    room cls enclosing ≤ cls.methods.length :=
  List.length_filter_le _ _

/-! ## Expansions -/

theorem Expands.unique {blocked : List String → Method → Prop} {enclosing : List String}
    {events trace trace' : List Event} (h : Expands cls blocked enclosing events trace)
    (h' : Expands cls blocked enclosing events trace') : trace = trace' := by
  induction h generalizing trace' with
  | nil =>
    cases h'
    rfl
  | keep hkeep _ ih =>
    cases h' with
    | keep _ rest => rw [ih rest]
    | splice hbody hfree => exact absurd (hkeep _ hbody) hfree
  | splice hbody hfree hown _ _ ihbody ihrest =>
    cases h' with
    | keep hkeep => exact absurd (hkeep _ hbody) hfree
    | splice hbody' _ hown' body rest =>
      obtain rfl := hbody.unique hbody'
      rw [hown] at hown'
      cases hown'
      rw [ihbody body, ihrest rest]

/-- The body of every call that is replaced has an expansion of its own. -/
theorem Expands.exists_body {blocked : List String → Method → Prop} {enclosing : List String}
    {events trace : List Event} (h : Expands cls blocked enclosing events trace) {event : Event}
    (hevent : event ∈ events) {target : Method} (hbody : IsBodyOf cls event target)
    (hfree : ¬ blocked enclosing target) :
    ∃ own inner, interpret cls target = .ok own ∧
      Expands cls blocked (target.key :: enclosing) own inner := by
  induction h with
  | nil => simp at hevent
  | keep hkeep _ ih =>
    rcases List.mem_cons.mp hevent with rfl | hrest
    · exact absurd (hkeep _ hbody) hfree
    · exact ih hrest hfree
  | @splice _ _ target' own inner _ _ hbody' _ hown body _ _ ih =>
    rcases List.mem_cons.mp hevent with rfl | hrest
    · obtain rfl := hbody'.unique hbody
      exact ⟨own, inner, hown, body⟩
    · exact ih hrest hfree

/-! ## Runs with a bound -/

/-- Splicing that ends well replaces calls as it should. There is always a level left for a body,
because every level encloses one more method. -/
theorem splices_of_spliceWithin {depth : Nat} {enclosing : List String} {method : Method}
    {trace : List Event} (hroom : room cls (method.key :: enclosing) < depth)
    (h : spliceWithin cls depth enclosing method = .ok trace) :
    ∃ events, interpret cls method = .ok events ∧
      Splices cls (method.key :: enclosing) events trace := by
  induction depth generalizing enclosing method trace with
  | zero => omega
  | succ depth ih =>
    obtain ⟨events, hevents, hrest⟩ := exists_of_bind_eq_ok h
    obtain ⟨parts, hparts, hflatten⟩ := exists_of_bind_eq_ok hrest
    cases hflatten
    refine ⟨events, hevents, ?_⟩
    have hall := forall₂_of_mapM_eq_ok hparts
    clear h hrest hevents hparts
    -- Events and their parts run in step, and only a call that is replaced needs another level.
    induction hall with
    | nil => exact .nil
    | @cons event part events parts hpart _ ihparts =>
      cases htarget : spliceTarget? cls (method.key :: enclosing) event with
      | none =>
        rw [htarget] at hpart
        cases hpart
        exact .keep (spliceTarget?_eq_none_iff.mp htarget) ihparts
      | some target =>
        rw [htarget] at hpart
        obtain ⟨hbody, hnew⟩ := spliceTarget?_eq_some_iff.mp htarget
        have hless := room_cons_lt (mem_methods_of_isBodyOf hbody) hnew
        obtain ⟨own, hown, hinner⟩ := ih (by omega) hpart
        exact .splice hbody hnew hown hinner ihparts

theorem leadsTo_of_spliceWithin_error {depth : Nat} {enclosing : List String} {method : Method}
    {e : Unavailable} (h : spliceWithin cls depth enclosing method = .error e) :
    ∃ chain m, LeadsTo cls enclosing method chain m ∧ interpret cls m = .error e := by
  induction depth generalizing enclosing method with
  | zero => exact ⟨enclosing, method, .here, h⟩
  | succ depth ih =>
    rcases cases_of_bind_eq_error h with hfail | ⟨events, hevents, h⟩
    · exact ⟨enclosing, method, .here, hfail⟩
    · rcases cases_of_bind_eq_error h with hparts | ⟨parts, -, h⟩
      · obtain ⟨event, hevent, hpart⟩ := exists_mem_of_mapM_eq_error hparts
        cases htarget : spliceTarget? cls (method.key :: enclosing) event with
        | none =>
          rw [htarget] at hpart
          cases hpart
        | some target =>
          rw [htarget] at hpart
          obtain ⟨hbody, hnew⟩ := spliceTarget?_eq_some_iff.mp htarget
          obtain ⟨chain, m, hleads, hm⟩ := ih hpart
          exact ⟨chain, m, .body ⟨events, hevents, event, hevent, hbody⟩ hnew hleads, hm⟩
      · cases h

/-! ## Chains of enclosing methods -/

theorem LeadsTo.nodup {enclosing chain : List String} {method m : Method}
    (h : LeadsTo cls enclosing method chain m) (hnodup : (method.key :: enclosing).Nodup) :
    (m.key :: chain).Nodup := by
  induction h with
  | here => exact hnodup
  | body _ hnew _ ih => exact ih (List.nodup_cons.mpr ⟨hnew, hnodup⟩)

theorem LeadsTo.length_le {enclosing chain : List String} {method m : Method}
    (h : LeadsTo cls enclosing method chain m) :
    chain.length + room cls (m.key :: chain) ≤
      enclosing.length + room cls (method.key :: enclosing) := by
  induction h with
  | here => exact Nat.le_refl _
  | body href hnew _ ih =>
    obtain ⟨events, -, event, -, hbody⟩ := href
    have hless := room_cons_lt (mem_methods_of_isBodyOf hbody) hnew
    rw [List.length_cons] at ih
    omega

/-- Nothing that splicing comes to fails if the trace can be spliced. -/
theorem LeadsTo.interpret_ok {enclosing chain : List String} {method m : Method}
    (h : LeadsTo cls enclosing method chain m) {events trace : List Event}
    (hevents : interpret cls method = .ok events)
    (hsplices : Splices cls (method.key :: enclosing) events trace) :
    ∃ own, interpret cls m = .ok own := by
  induction h generalizing events trace with
  | here => exact ⟨events, hevents⟩
  | body href hnew _ ih =>
    obtain ⟨events', hevents', event, hevent, hbody⟩ := href
    rw [hevents] at hevents'
    cases hevents'
    obtain ⟨own, inner, hown, hinner⟩ := hsplices.exists_body hevent hbody hnew
    exact ih hown hinner

/-! ## Without circles -/

section Reached

variable {start : Method}

/-- Without circles no body is around the call that it is spliced in for. -/
theorem unfolds_of_splices (hacyclic : Acyclic cls start) {around : List String}
    {events trace : List Event} (h : Splices cls around events trace) {m : Method}
    {enclosing : List String} {own : List Event} (haround : around = m.key :: enclosing)
    (hm : Relation.ReflTransGen (Refers cls) start m) (hown : interpret cls m = .ok own)
    (hevents : events ⊆ own)
    (hchain : ∀ key ∈ enclosing, Relation.TransGen (KeyRefers cls start) key m.key)
    (outer : List String) : Expands cls (fun _ _ => False) outer events trace := by
  induction h generalizing m enclosing own outer with
  | nil => exact .nil
  | @keep around event events trace hkeep _ ih =>
    subst haround
    obtain ⟨hevent, hrest⟩ := List.cons_subset.mp hevents
    refine .keep ?_ (ih rfl hm hown hrest hchain outer)
    intro target hbody
    have hedge : KeyRefers cls start m.key target.key :=
      ⟨m, target, hm, ⟨own, hown, event, hevent, hbody⟩, rfl, rfl⟩
    -- A call whose body is around it closes a circle: at the method itself or further out.
    rcases List.mem_cons.mp (hkeep target hbody) with hself | houter
    · exact hacyclic m.key (.single (hself ▸ hedge))
    · exact hacyclic target.key (.tail (hchain _ houter) hedge)
  | @splice around event target own' inner events trace hbody hfree hown' _ _ ihbody ihrest =>
    subst haround
    obtain ⟨hevent, hrest⟩ := List.cons_subset.mp hevents
    have href : Refers cls m target := ⟨own, hown, event, hevent, hbody⟩
    have hedge : KeyRefers cls start m.key target.key := ⟨m, target, hm, href, rfl, rfl⟩
    have hchain' : ∀ key ∈ m.key :: enclosing,
        Relation.TransGen (KeyRefers cls start) key target.key := by
      intro key hkey
      rcases List.mem_cons.mp hkey with rfl | houter
      · exact .single hedge
      · exact .tail (hchain key houter) hedge
    exact .splice hbody not_false hown'
      (ihbody rfl (.tail hm href) hown' (List.Subset.refl _) hchain' _)
      (ihrest rfl hm hown hrest hchain outer)

/-- If all lambdas have bodies, none is left in an unfolding. -/
theorem lambdaCall?_of_unfolds (hbodies : HasBodies cls start) {outer : List String}
    {events trace : List Event} (h : Expands cls (fun _ _ => False) outer events trace)
    {m : Method} {own : List Event} (hm : Relation.ReflTransGen (Refers cls) start m)
    (hown : interpret cls m = .ok own) (hevents : events ⊆ own) :
    ∀ event ∈ trace, lambdaCall? cls event = none := by
  induction h generalizing m own with
  | nil => simp
  | @keep _ event events trace hkeep _ ih =>
    obtain ⟨hevent, hrest⟩ := List.cons_subset.mp hevents
    refine List.forall_mem_cons.mpr ⟨?_, ih hm hown hrest⟩
    by_contra hcall
    obtain ⟨target, hbody⟩ :=
      hbodies m hm own hown event hevent (Option.isSome_iff_ne_none.mpr hcall)
    exact hkeep target hbody
  | @splice _ event target own' inner events trace hbody _ hown' _ _ ihbody ihrest =>
    obtain ⟨hevent, hrest⟩ := List.cons_subset.mp hevents
    have href : Refers cls m target := ⟨own, hown, event, hevent, hbody⟩
    intro event' hmem
    rcases List.mem_append.mp hmem with hinner | hlater
    · exact ihbody (.tail hm href) hown' (List.Subset.refl _) event' hinner
    · exact ihrest hm hown hrest event' hlater

end Reached

/-! ## The outcome of splicing -/

theorem room_lt_depth (method : Method) :
    room cls [method.key] < cls.methods.length + 1 := by
  have hle := room_le cls [method.key]
  omega

theorem spliced_eq_ok_iff {method : Method} {trace : List Event} :
    spliced cls method = .ok trace ↔
      ∃ events, interpret cls method = .ok events ∧ Splices cls [method.key] events trace := by
  refine ⟨splices_of_spliceWithin (room_lt_depth method), ?_⟩
  intro hsplices
  obtain ⟨events, hevents, hsplices⟩ := hsplices
  cases hspliced : spliced cls method with
  | ok trace' =>
    obtain ⟨events', hevents', hsplices'⟩ :=
      splices_of_spliceWithin (room_lt_depth method) hspliced
    rw [hevents] at hevents'
    cases hevents'
    rw [hsplices.unique hsplices']
  | error e =>
    obtain ⟨chain, m, hleads, hm⟩ := leadsTo_of_spliceWithin_error hspliced
    obtain ⟨own, hown⟩ := hleads.interpret_ok hevents hsplices
    rw [hm] at hown
    cases hown

private theorem spliced_eq_error_iff {method : Method} :
    (∃ e, spliced cls method = .error e) ↔
      ∃ chain m e, LeadsTo cls [] method chain m ∧ interpret cls m = .error e := by
  constructor
  · intro hfails
    obtain ⟨e, he⟩ := hfails
    obtain ⟨chain, m, hleads, hm⟩ := leadsTo_of_spliceWithin_error he
    exact ⟨chain, m, e, hleads, hm⟩
  · intro hfails
    obtain ⟨chain, m, e, hleads, hm⟩ := hfails
    cases hspliced : spliced cls method with
    | error e' => exact ⟨e', rfl⟩
    | ok trace =>
      obtain ⟨events, hevents, hsplices⟩ := spliced_eq_ok_iff.mp hspliced
      obtain ⟨own, hown⟩ := hleads.interpret_ok hevents hsplices
      rw [hm] at hown
      cases hown

private theorem unfolds_of_spliced {method : Method} (hacyclic : Acyclic cls method)
    {events trace : List Event} (hevents : interpret cls method = .ok events)
    (hspliced : spliced cls method = .ok trace) : Unfolds cls events trace := by
  obtain ⟨events', hevents', hsplices⟩ := spliced_eq_ok_iff.mp hspliced
  rw [hevents] at hevents'
  cases hevents'
  exact unfolds_of_splices hacyclic hsplices rfl .refl hevents (List.Subset.refl _) (by simp) []

/-- **Splicing always comes to an end.** Along a chain of enclosing methods no name and descriptor
occurs twice, so no chain is longer than the class has methods. Splicing fails exactly if a method
that it comes to has no trace. Otherwise it gives the trace of the method with calls of lambdas
replaced, except for those without a body and those whose body is around them. If the lambdas do not
call each other in a circle this is the full unfolding, and no call of a lambda is left in it if all
of them have bodies. -/
theorem splicing_outcome (cls : ClassFile) (method : Method) :
    (∀ chain m, LeadsTo cls [] method chain m →
      (m.key :: chain).Nodup ∧ chain.length ≤ cls.methods.length) ∧
    ((∃ e, spliced cls method = .error e) ↔
      ∃ chain m e, LeadsTo cls [] method chain m ∧ interpret cls m = .error e) ∧
    (∀ trace, spliced cls method = .ok trace ↔
      ∃ events, interpret cls method = .ok events ∧ Splices cls [method.key] events trace) ∧
    (Acyclic cls method → ∀ events trace, interpret cls method = .ok events →
      spliced cls method = .ok trace →
        (∀ trace', Unfolds cls events trace' ↔ trace' = trace) ∧
        (HasBodies cls method → ∀ event ∈ trace, lambdaCall? cls event = none)) := by
  refine ⟨?_, spliced_eq_error_iff, fun trace => spliced_eq_ok_iff, ?_⟩
  · intro chain m hleads
    have hlength := hleads.length_le
    have hroom := room_le cls [method.key]
    rw [List.length_nil] at hlength
    exact ⟨hleads.nodup (List.nodup_singleton _), by omega⟩
  · intro hacyclic events trace hevents hspliced
    have hunfolds := unfolds_of_spliced hacyclic hevents hspliced
    constructor
    · intro trace'
      constructor
      · intro hunfolds'
        exact hunfolds'.unique hunfolds
      · intro heq
        exact heq ▸ hunfolds
    · intro hbodies
      exact lambdaCall?_of_unfolds hbodies hunfolds .refl hevents (List.Subset.refl _)

/-! ## A class with lambdas -/

/-- A method without parameters and result. -/
def plainMethod (name : String) (code : Bytes) : Method :=
  { access := 0x1A, name, descriptor := "()V", code := some code }

def runMethod : Method := plainMethod "run" [0xB8, 0, 6, 0xB1]

def runBody : Method := plainMethod "lambda$run$0" [0xB8, 0, 12, 0xB1]

def spinMethod : Method := plainMethod "spin" [0xB8, 0, 9, 0xB1]

def spinBody : Method := plainMethod "lambda$spin$1" [0xB8, 0, 9, 0xB1]

/-- A class with a lambda that makes a call of its own, and with a lambda that calls itself. -/
def setupClass : ClassFile where
  name := "app/Setup"
  pool := ⟨#[none, some (.utf8 "app/Setup"), some (.classRef 1), some (.utf8 "()V"),
    some (.utf8 "lambda$run$0"), some (.nameAndType 4 3), some (.methodRef 2 5),
    some (.utf8 "lambda$spin$1"), some (.nameAndType 7 3), some (.methodRef 2 8),
    some (.utf8 "disable"), some (.nameAndType 10 3), some (.methodRef 2 11)]⟩
  methods := [runMethod, runBody, spinMethod, spinBody]

def setupCall (name : String) : Event := .call ⟨"app.Setup", name, "()V"⟩

theorem interpret_runMethod :
    interpret setupClass runMethod = .ok [setupCall "lambda$run$0"] := by
  decide +kernel

theorem interpret_runBody : interpret setupClass runBody = .ok [setupCall "disable"] := by
  decide +kernel

theorem eq_of_refers_runMethod {target : Method} (h : Refers setupClass runMethod target) :
    target = runBody := by
  obtain ⟨events, hevents, event, hevent, hbody⟩ := h
  rw [interpret_runMethod] at hevents
  cases hevents
  rw [List.mem_singleton.mp hevent] at hbody
  have hrun : IsBodyOf setupClass (setupCall "lambda$run$0") runBody :=
    ⟨⟨"app.Setup", "lambda$run$0", "()V"⟩, by decide +kernel, rfl⟩
  exact hbody.unique hrun

theorem not_refers_runBody (target : Method) : ¬ Refers setupClass runBody target := by
  intro h
  obtain ⟨events, hevents, event, hevent, c, hc, -⟩ := h
  rw [interpret_runBody] at hevents
  cases hevents
  rw [List.mem_singleton.mp hevent] at hc
  have hnone : lambdaCall? setupClass (setupCall "disable") = none := by decide +kernel
  rw [hnone] at hc
  cases hc

theorem reached_runMethod {m : Method}
    (h : Relation.ReflTransGen (Refers setupClass) runMethod m) : m = runMethod ∨ m = runBody := by
  induction h with
  | refl => exact .inl rfl
  | tail _ href ih =>
    rcases ih with rfl | rfl
    · exact .inr (eq_of_refers_runMethod href)
    · exact absurd href (not_refers_runBody _)

theorem acyclic_runMethod : Acyclic setupClass runMethod := by
  have hedge : ∀ key key', KeyRefers setupClass runMethod key key' →
      key = runMethod.key ∧ key' = runBody.key := by
    intro key key' h
    obtain ⟨m, target, hm, href, rfl, rfl⟩ := h
    rcases reached_runMethod hm with rfl | rfl
    · exact ⟨rfl, by rw [eq_of_refers_runMethod href]⟩
    · exact absurd href (not_refers_runBody _)
  intro key hcycle
  obtain ⟨next, hfirst, -⟩ := Relation.TransGen.head'_iff.mp hcycle
  obtain ⟨last, -, hlast⟩ := Relation.TransGen.tail'_iff.mp hcycle
  have hsame : runMethod.key = runBody.key :=
    (hedge _ _ hfirst).1.symm.trans (hedge _ _ hlast).2
  exact absurd hsame (by decide)

private theorem hasBodies_runMethod : HasBodies setupClass runMethod := by
  intro m hm events hevents event hevent hcall
  rcases reached_runMethod hm with rfl | rfl
  · rw [interpret_runMethod] at hevents
    cases hevents
    rw [List.mem_singleton.mp hevent]
    exact ⟨runBody, ⟨"app.Setup", "lambda$run$0", "()V"⟩, by decide +kernel, rfl⟩
  · rw [interpret_runBody] at hevents
    cases hevents
    rw [List.mem_singleton.mp hevent] at hcall
    exact absurd hcall (by decide +kernel)

/-- The lambda that `run` calls is replaced, and the one that calls itself is left once. -/
theorem splicing_outcome_setupClass :
    spliced setupClass runMethod = .ok [setupCall "disable"] ∧
    spliced setupClass spinMethod = .ok [setupCall "lambda$spin$1"] ∧
    Acyclic setupClass runMethod ∧ HasBodies setupClass runMethod ∧
    Unfolds setupClass [setupCall "lambda$run$0"] [setupCall "disable"] ∧
    Splices setupClass [spinMethod.key] [setupCall "lambda$spin$1"]
      [setupCall "lambda$spin$1"] := by
  have hrun : spliced setupClass runMethod = .ok [setupCall "disable"] := by decide +kernel
  have hspin : spliced setupClass spinMethod = .ok [setupCall "lambda$spin$1"] := by
    decide +kernel
  have hspinEvents : interpret setupClass spinMethod = .ok [setupCall "lambda$spin$1"] := by
    decide +kernel
  obtain ⟨-, -, -, hunfolds⟩ := splicing_outcome setupClass runMethod
  obtain ⟨-, -, hsplices, -⟩ := splicing_outcome setupClass spinMethod
  obtain ⟨hunique, -⟩ := hunfolds acyclic_runMethod _ _ interpret_runMethod hrun
  obtain ⟨events, hevents, hspliced⟩ := (hsplices _).mp hspin
  rw [hspinEvents] at hevents
  cases hevents
  exact ⟨hrun, hspin, acyclic_runMethod, hasBodies_runMethod, (hunique _).mpr rfl, hspliced⟩

end EndpointAudit.Trace
