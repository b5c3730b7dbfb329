import EndpointAudit.Filter.Memo
import EndpointAudit.Proofs.ClassFile.Reads
import EndpointAudit.Proofs.Data.Except

/-!
# Where the names in a trace come from

A call in a trace names its owner as the constant pool of the class does, whether the call stands
in the code, in the body of a lambda or in the arguments of a dynamic call. So all types that the
traces of a class path name are among those that its classes refer to.
-/

namespace EndpointAudit

/-! ## Readers that find values of a kind -/

namespace Reader

/-- Whatever the reader finds has the property. -/
def Yields {α : Type} (read : Reader α) (P : α → Prop) : Prop :=
  ∀ bytes a rest, read bytes = .ok (a, rest) → P a

variable {α β : Type} {P : α → Prop} {Q : β → Prop}

theorem yields_pure {a : α} (h : P a) : Yields (pure a) P := by
  intro bytes a' rest heq
  cases heq
  exact h

theorem yields_throw (e : ClassError) : Yields (throw e : Reader α) P :=
  fun _ _ _ heq => nomatch heq

private theorem yields_true (read : Reader α) : Yields read fun _ => True :=
  fun _ _ _ _ => trivial

theorem Yields.bind {first : Reader α} {next : α → Reader β} (h : Yields first P)
    (hnext : ∀ a, P a → Yields (next a) Q) : Yields (first >>= next) Q := by
  intro bytes b rest heq
  obtain ⟨⟨a, between⟩, hfirst, hrest⟩ := exists_of_bind_eq_ok
    (show (first bytes).bind (fun p => next p.1 p.2) = .ok (b, rest) from heq)
  exact hnext a (h bytes a between hfirst) between b rest hrest

theorem yields_bind {first : Reader α} {next : α → Reader β} (hnext : ∀ a, Yields (next a) Q) :
    Yields (first >>= next) Q :=
  (yields_true first).bind fun a _ => hnext a

theorem yields_check {found : Except ClassError α} (h : ∀ a, found = .ok a → P a) :
    Yields (check found) P := by
  intro bytes a rest heq
  cases found with
  | error e => cases heq
  | ok a' =>
    cases heq
    exact h a rfl

theorem Yields.times {read : Reader α} (h : Yields read P) (n : Nat) :
    Yields (times read n) fun as => ∀ a ∈ as, P a := by
  induction n with
  | zero => exact yields_pure (by simp)
  | succ n ih =>
    refine h.bind fun a ha => ih.bind fun as has => yields_pure ?_
    exact List.forall_mem_cons.mpr ⟨ha, has⟩

theorem Yields.counted {read : Reader α} (h : Yields read P) :
    Yields (counted read) fun as => ∀ a ∈ as, P a :=
  yields_bind fun n => h.times n.toNat

theorem Yields.front {read : Reader α} (h : Yields read P) {bytes : Bytes} {a : α}
    (hfront : front read bytes = .ok a) : P a := by
  obtain ⟨rest, hread⟩ := exists_of_front hfront
  exact h bytes a rest hread

end Reader

/-! ## Owners in the pool -/

namespace Pool

open EndpointAudit.Filter

variable {p : Pool}

private theorem mem_slots_of_entry {slot : Int} {c : Constant} (h : p.entry slot = .ok c) :
    some c ∈ p.slots.toList := by
  unfold entry at h
  split at h
  · cases h
  · split at h
    · next heq =>
      cases h
      exact Array.mem_toList_iff.mpr (Array.mem_of_getElem? heq)
    · cases h

private theorem dotted_mem_of_className {slot : Int} {name : String}
    (h : p.className slot = .ok name) : Naming.dotted name ∈ classNames p := by
  obtain ⟨c, hentry, h⟩ := exists_of_bind_eq_ok h
  split at h
  · next text =>
    refine List.mem_filterMap.mpr ⟨_, mem_slots_of_entry hentry, ?_⟩
    simp only [h, Except.toOption, Option.map_some]
  · cases h

theorem dotted_mem_of_memberRef {slot : Int} {ref : MemberRef} (h : p.memberRef slot = .ok ref) :
    Naming.dotted ref.owner ∈ classNames p := by
  obtain ⟨c, -, h⟩ := exists_of_bind_eq_ok h
  cases c with
  | fieldRef owner member | methodRef owner member | interfaceMethodRef owner member =>
    obtain ⟨⟨name, descriptor⟩, -, h⟩ := exists_of_bind_eq_ok h
    obtain ⟨ownerName, howner, h⟩ := exists_of_bind_eq_ok h
    cases h
    exact dotted_mem_of_className howner
  | _ => cases h

private theorem dotted_mem_of_loadable {slot : Int} {handle : MethodHandle}
    (h : p.loadable slot = .ok (some (.handle handle))) :
    Naming.dotted handle.target.owner ∈ classNames p := by
  obtain ⟨c, -, h⟩ := exists_of_bind_eq_ok h
  cases c with
  | string text | classRef text | methodType text =>
    obtain ⟨value, -, h⟩ := exists_of_bind_eq_ok h
    cases h
  | methodHandle kind ref =>
    obtain ⟨target, htarget, h⟩ := exists_of_bind_eq_ok h
    cases h
    exact dotted_mem_of_memberRef htarget
  | _ => cases h

end Pool

namespace ClassFile

open Reader EndpointAudit.Filter

/-- The methods that are handed to dynamic calls belong to classes of the pool. -/
def HandlesNamed (cls : ClassFile) : Prop :=
  ∀ b ∈ cls.bootstrapMethods, ∀ handle, some (.handle handle) ∈ b.arguments →
    Naming.dotted handle.target.owner ∈ classNames cls.pool

private theorem yields_readLoadableRef (pool : Pool) (typeName : String) :
    Yields (readLoadableRef pool typeName) fun value => ∀ handle,
      value = some (.handle handle) → Naming.dotted handle.target.owner ∈ classNames pool := by
  refine yields_bind fun slot => yields_check ?_
  rintro value hvalue handle rfl
  exact Pool.dotted_mem_of_loadable (eq_ok_of_mapError_eq_ok hvalue)

private theorem yields_readBootstrapMethod (pool : Pool) (typeName : String) :
    Yields (readBootstrapMethod pool typeName) fun b => ∀ handle,
      some (.handle handle) ∈ b.arguments →
        Naming.dotted handle.target.owner ∈ classNames pool := by
  refine yields_bind fun handle => ?_
  refine (yields_readLoadableRef pool typeName).counted.bind fun arguments harguments => ?_
  split
  · exact yields_pure fun handle hmem => harguments _ hmem handle rfl
  · exact yields_throw _

theorem HandlesNamed.addClassAttribute {cls cls' : ClassFile} {part : String × Bytes}
    (h : cls.HandlesNamed) (hadd : addClassAttribute cls part = .ok cls') :
    cls'.HandlesNamed := by
  obtain ⟨label, body⟩ := part
  rw [ClassFile.addClassAttribute] at hadd
  split at hadd
  · obtain ⟨methods, hmethods, hadd⟩ := exists_of_bind_eq_ok hadd
    cases hadd
    exact (yields_readBootstrapMethod cls.pool cls.typeName).counted.front hmethods
  · split at hadd
    · obtain ⟨annotations, -, hadd⟩ := exists_of_bind_eq_ok hadd
      cases hadd
      exact h
    · cases hadd
      exact h

private theorem yields_reader : Yields reader HandlesNamed := by
  have hmembers (name : String) (superName : Option String) (pool : Pool) (typeName : String) :
      Yields (do
        let fields ← counted (readField pool typeName)
        let methods ← counted (readMethod pool typeName)
        let attributes ← counted (readAttribute pool typeName)
        check (attributes.foldlM addClassAttribute { name, superName, pool, fields, methods }))
        HandlesNamed := by
    refine yields_bind fun fields => yields_bind fun methods => yields_bind fun attributes => ?_
    refine yields_check fun cls hcls => ?_
    refine foldlM_invariant (fun cls _ cls' h hadd => h.addClassAttribute hadd) ?_ hcls
    simp [HandlesNamed]
  refine yields_bind fun magic => ?_
  dsimp only
  split
  · exact (yields_throw (P := fun _ => False) _).bind fun _ h => h.elim
  · refine yields_bind fun _ => yields_bind fun _ => yields_bind fun pool => ?_
    refine yields_bind fun _ => yields_bind fun thisSlot => yields_bind fun superSlot => ?_
    refine yields_bind fun _ => yields_bind fun name => ?_
    split
    · exact hmembers name none pool _
    · exact yields_bind fun superName => hmembers name superName pool _

private theorem handlesNamed_of_parse {bytes : Bytes} {cls : ClassFile}
    (h : parse bytes = .ok cls) :
    cls.HandlesNamed :=
  yields_reader.front h

end ClassFile

/-! ## Owners in a trace -/

namespace Trace

open EndpointAudit.Filter

/-- The owners of all calls are classes of the pool. -/
def OwnersNamed (pool : Pool) (events : List Event) : Prop :=
  ∀ c, .call c ∈ events → c.owner ∈ classNames pool

theorem OwnersNamed.flatten {pool : Pool} {parts : List (List Event)}
    (h : ∀ part ∈ parts, OwnersNamed pool part) : OwnersNamed pool parts.flatten := by
  intro c hc
  obtain ⟨part, hpart, hmem⟩ := List.mem_flatten.mp hc
  exact h part hpart c hmem

variable {cls : ClassFile}

private theorem ownersNamed_handleCalls (h : cls.HandlesNamed) {b : BootstrapMethod}
    (hb : b ∈ cls.bootstrapMethods) : OwnersNamed cls.pool (handleCalls b.arguments) := by
  intro c hc
  obtain ⟨argument, hargument, heq⟩ := List.mem_filterMap.mp hc
  split at heq
  · next handle =>
    cases heq
    exact h b hb handle hargument
  · cases heq

private theorem ownersNamed_callOf {slot : Int} {ref : MemberRef}
    (h : cls.resolve (cls.pool.memberRef slot) = .ok ref) :
    OwnersNamed cls.pool [callOf ref] := by
  intro c hc
  cases List.mem_singleton.mp hc
  exact Pool.dotted_mem_of_memberRef (eq_ok_of_mapError_eq_ok h)

private theorem ownersNamed_dynamic (h : cls.HandlesNamed) {slot : Int}
    {found : Option BootstrapMethod × String × String}
    (hfound : cls.invokeDynamic slot = .ok found) :
    OwnersNamed cls.pool ((found.1.map fun b => handleCalls b.arguments).getD []) := by
  obtain ⟨⟨n, name, descriptor⟩, -, hfound⟩ := exists_of_bind_eq_ok hfound
  cases hfound
  cases hb : cls.bootstrapMethods[n]? with
  | none => simp [OwnersNamed]
  | some b => exact ownersNamed_handleCalls h (List.mem_of_getElem? hb)

private theorem ownersNamed_eventsOf (h : cls.HandlesNamed) {i : Code.Instruction}
    {events : List Event}
    (hevents : eventsOf cls i = .ok events) : OwnersNamed cls.pool events := by
  unfold eventsOf at hevents
  split at hevents
  · obtain ⟨text, -, hevents⟩ := exists_of_bind_eq_ok hevents
    cases hevents
    simp [OwnersNamed]
  · split_ifs at hevents
    · obtain ⟨ref, href, hevents⟩ := exists_of_bind_eq_ok hevents
      cases hevents
      exact ownersNamed_callOf href
    · obtain ⟨found, hfound, hevents⟩ := exists_of_bind_eq_ok hevents
      cases hevents
      exact ownersNamed_dynamic h hfound
    · obtain ⟨ref, -, hevents⟩ := exists_of_bind_eq_ok hevents
      split at hevents
      · cases hevents
        simp [OwnersNamed]
      · cases hevents
        simp [OwnersNamed]
    · cases hevents
      simp [OwnersNamed]
    · cases hevents
      simp [OwnersNamed]
    · cases hevents
      simp [OwnersNamed]

theorem ownersNamed_interpret (h : cls.HandlesNamed) {method : Method} {events : List Event}
    (hevents : interpret cls method = .ok events) : OwnersNamed cls.pool events := by
  unfold interpret at hevents
  split at hevents
  · cases hevents
  · obtain ⟨parts, hparts, hevents⟩ := exists_of_bind_eq_ok hevents
    split at hevents
    · cases hevents
      apply OwnersNamed.flatten
      intro part hpart
      obtain ⟨i, -, hi⟩ := exists_mem_of_mapM_eq_ok (eq_ok_of_mapError_eq_ok hparts) hpart
      exact ownersNamed_eventsOf h hi
    · cases hevents

private theorem ownersNamed_spliceWithin (h : cls.HandlesNamed) (depth : Nat)
    (enclosing : List String) {method : Method} {events : List Event}
    (hevents : spliceWithin cls depth enclosing method = .ok events) :
    OwnersNamed cls.pool events := by
  induction depth generalizing enclosing method events with
  | zero => exact ownersNamed_interpret h hevents
  | succ depth ih =>
    obtain ⟨own, hown, hevents⟩ := exists_of_bind_eq_ok hevents
    obtain ⟨parts, hparts, hevents⟩ := exists_of_bind_eq_ok hevents
    cases hevents
    apply OwnersNamed.flatten
    intro part hpart
    obtain ⟨event, hevent, hi⟩ := exists_mem_of_mapM_eq_ok hparts hpart
    split at hi
    · exact ih _ hi
    · cases hi
      intro c hc
      rw [← List.mem_singleton.mp hc] at hevent
      exact ownersNamed_interpret h hown c hevent

private theorem ownersNamed_ofMethod (h : cls.HandlesNamed) {methodName : String}
    {descriptor : Option String} {inlineLambdas : Bool} {events : List Event}
    (hevents : ofMethod cls methodName descriptor inlineLambdas = .ok events) :
    OwnersNamed cls.pool events := by
  unfold ofMethod at hevents
  split at hevents
  · cases hevents
  · split at hevents
    · exact ownersNamed_spliceWithin h _ _ hevents
    · exact ownersNamed_interpret h hevents

end Trace

/-! ## Owners on a class path -/

namespace ClassPath

open EndpointAudit.Filter

private theorem mem_entryFiles_of_readEntry {entry : ClassPathEntry} {resource : String}
    {bytes : Bytes}
    (h : readEntry entry resource = .ok (some bytes)) : bytes ∈ entryFiles entry := by
  unfold readEntry at h
  unfold entryFiles
  cases hcontent : entry.content with
  | folder files folders =>
    simp only [hcontent, Except.ok.injEq, file?] at h ⊢
    split at h
    · cases h
    · obtain ⟨file, hfile, rfl⟩ := Option.map_eq_some_iff.mp h
      exact List.mem_map_of_mem (List.mem_of_find?_eq_some hfile)
  | archive members =>
    simp only [hcontent, Except.ok.injEq] at h ⊢
    obtain ⟨folder, -, hmember⟩ := List.exists_of_findSome?_eq_some h
    obtain ⟨found, hfound, rfl⟩ := Option.map_eq_some_iff.mp hmember
    exact List.mem_map_of_mem (List.mem_reverse.mp (List.mem_of_find?_eq_some hfound))
  | brokenArchive => simp [hcontent] at h
  | other => simp [hcontent] at h

private theorem mem_files_of_readFrom {entries : List ClassPathEntry} {resource : String}
    {bytes : Bytes}
    (h : readFrom resource entries = .ok (some bytes)) : bytes ∈ entries.flatMap entryFiles := by
  induction entries with
  | nil => cases h
  | cons entry rest ih =>
    rw [List.flatMap_cons, List.mem_append]
    rw [readFrom] at h
    split at h
    · cases h
    · next hread =>
      cases h
      exact .inl (mem_entryFiles_of_readEntry hread)
    · exact .inr (ih h)

private theorem mem_files_of_read {cp : ClassPath} {typeName : String} {bytes : Bytes}
    (h : cp.read typeName = .ok bytes) : bytes ∈ cp.entries.flatMap entryFiles := by
  unfold read at h
  split at h
  · next hread =>
    cases h
    exact mem_files_of_readFrom hread
  · cases h
  · cases h

/-- The owners of all calls in a trace are among the types that the class path refers to. -/
theorem owner_mem_referencedTypes {cp : ClassPath} {typeName methodName : String}
    {descriptor : Option String} {inlineLambdas : Bool} {events : List Event} {c : Call}
    (h : cp.trace typeName methodName descriptor inlineLambdas = .ok events)
    (hc : .call c ∈ events) : c.owner ∈ referencedTypes cp := by
  obtain ⟨cls, hload, htrace⟩ := exists_of_bind_eq_ok h
  obtain ⟨bytes, hread, hparse⟩ := exists_of_bind_eq_ok hload
  have hbytes := mem_files_of_read hread
  replace hparse := eq_ok_of_mapError_eq_ok hparse
  have hnamed := Trace.ownersNamed_ofMethod (ClassFile.handlesNamed_of_parse hparse)
    (eq_ok_of_mapError_eq_ok htrace)
  refine List.mem_flatMap.mpr ⟨bytes, hbytes, ?_⟩
  rw [hparse]
  exact hnamed c hc

end ClassPath

end EndpointAudit
