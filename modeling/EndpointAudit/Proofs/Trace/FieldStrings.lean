import EndpointAudit.Proofs.Data.Lookup
import EndpointAudit.Trace.FieldStrings
import Mathlib.Data.List.Forall2

/-!
# Which fields are set to strings

The scan of an initializer carries a string constant along. What it carries at a place is told by
the instructions before it: the constant was loaded, and nothing but `aload_0` and `dup` came since.
So the values are those of the declarations, and then those of the stores of each initializer up to
its first instruction that cannot be decoded or resolved.
-/

namespace EndpointAudit.Trace

/-! ## Instructions -/

/-- The instruction loads the constant in a slot: `ldc` or `ldc_w`. -/
def LoadsSlot (i : Code.Instruction) (slot : Nat) : Prop :=
  i.opcode = 0x12 ∧ slot = i.operand1 ∨ i.opcode = 0x13 ∧ slot = i.operand2

/-- The instruction is `aload_0` or `dup`. -/
def LeavesConstant (i : Code.Instruction) : Prop := i.opcode = 0x2A ∨ i.opcode = 0x59

/-- The instruction is `putfield` or `putstatic`. -/
def StoresField (i : Code.Instruction) : Prop := i.opcode = 0xB5 ∨ i.opcode = 0xB3

theorem constantSlot?_eq_some_iff (i : Code.Instruction) (slot : Nat) :
    constantSlot? i = some slot ↔ LoadsSlot i slot := by
  unfold constantSlot? LoadsSlot
  split
  · next h => simp [h, eq_comm]
  · next h =>
    split
    · next h' => simp [h', eq_comm]
    · next h' => simp [h, h']

theorem keepsPending_iff (i : Code.Instruction) :
    FieldScan.keepsPending i = true ↔ LeavesConstant i := by
  simp [FieldScan.keepsPending, LeavesConstant]

theorem isStore_iff (i : Code.Instruction) : FieldScan.isStore i = true ↔ StoresField i := by
  simp [FieldScan.isStore, StoresField]

theorem LoadsSlot.not_leaves {i : Code.Instruction} {slot : Nat} (h : LoadsSlot i slot) :
    ¬ LeavesConstant i := by
  obtain ⟨h, -⟩ | ⟨h, -⟩ := h <;> simp [LeavesConstant, h]

theorem LoadsSlot.not_stores {i : Code.Instruction} {slot : Nat} (h : LoadsSlot i slot) :
    ¬ StoresField i := by
  obtain ⟨h, -⟩ | ⟨h, -⟩ := h <;> simp [StoresField, h]

theorem StoresField.not_leaves {i : Code.Instruction} (h : StoresField i) :
    ¬ LeavesConstant i := by
  obtain h | h := h <;> simp [LeavesConstant, h]

theorem LoadsSlot.unique {i : Code.Instruction} {slot slot' : Nat} (h : LoadsSlot i slot)
    (h' : LoadsSlot i slot') : slot = slot' := by
  rw [← constantSlot?_eq_some_iff] at h h'
  exact Option.some.inj (h.symm.trans h')

/-! ## Assignments by what stands before them -/

section

variable (cls : ClassFile) (body : List Code.Instruction)

/-- Before place `j` a string constant was loaded, and only instructions that leave it usable came
since. -/
def Pending (j : Nat) (text : String) : Prop :=
  ∃ k < j, (∃ i slot, body[k]? = some i ∧ LoadsSlot i slot ∧
      cls.pool.stringConstant slot = .ok (some text)) ∧
    ∀ m, k < m → m < j → ∃ i, body[m]? = some i ∧ LeavesConstant i

/-- The instruction at place `j` cannot be resolved: it loads a constant from a bad slot, or it
stores a string constant by a bad reference. -/
def FailsAt (j : Nat) : Prop :=
  ∃ i, body[j]? = some i ∧
    ((∃ slot fault, LoadsSlot i slot ∧ cls.pool.stringConstant slot = .error fault) ∨
      (StoresField i ∧ (∃ text, Pending cls body j text) ∧
        ∃ fault, cls.pool.memberRef i.operand2 = .error fault))

/-- The instruction at place `j` stores a string constant into a string field of the class. -/
def Assigns (j : Nat) (entry : String × String) : Prop :=
  ∃ i, body[j]? = some i ∧ StoresField i ∧
    cls.pool.memberRef i.operand2 = .ok ⟨cls.name, entry.1, "Ljava/lang/String;"⟩ ∧
    Pending cls body j entry.2

/-- The entries that the instructions assign, in order, up to the first that cannot be resolved. -/
def IsAssignments (entries : List (String × String)) : Prop :=
  ∃ places : List Nat, places.Pairwise (· < ·) ∧
    (∀ j, j ∈ places ↔ (∀ f ≤ j, ¬ FailsAt cls body f) ∧ ∃ entry, Assigns cls body j entry) ∧
    List.Forall₂ (Assigns cls body) places entries

end

variable {cls : ClassFile} {body : List Code.Instruction} {i : Code.Instruction} {j : Nat}

private theorem pending_zero (text : String) : ¬ Pending cls body 0 text := by
  intro ⟨k, hk, _⟩
  exact Nat.not_lt_zero k hk

theorem pending_succ (hi : body[j]? = some i) (text : String) :
    Pending cls body (j + 1) text ↔
      (∃ slot, LoadsSlot i slot ∧ cls.pool.stringConstant slot = .ok (some text)) ∨
        LeavesConstant i ∧ Pending cls body j text := by
  constructor
  · intro ⟨k, hk, ⟨i', slot, hi', hloads, htext⟩, hbetween⟩
    rcases Nat.lt_succ_iff_lt_or_eq.mp hk with hlt | rfl
    · obtain ⟨i'', hi'', hleaves⟩ := hbetween j hlt (Nat.lt_succ_self j)
      cases hi.symm.trans hi''
      exact .inr ⟨hleaves, k, hlt, ⟨i', slot, hi', hloads, htext⟩,
        fun m hkm hmj => hbetween m hkm (Nat.lt_succ_of_lt hmj)⟩
    · cases hi.symm.trans hi'
      exact .inl ⟨slot, hloads, htext⟩
  · intro h
    rcases h with ⟨slot, hloads, htext⟩ | ⟨hleaves, k, hk, hload, hbetween⟩
    · exact ⟨j, Nat.lt_succ_self j, ⟨i, slot, hi, hloads, htext⟩, fun m hjm hmj => by omega⟩
    · refine ⟨k, Nat.lt_succ_of_lt hk, hload, fun m hkm hmj => ?_⟩
      rcases Nat.lt_succ_iff_lt_or_eq.mp hmj with hlt | rfl
      · exact hbetween m hkm hlt
      · exact ⟨i, hi, hleaves⟩

/-! ## One instruction of the scan -/

namespace FieldScan

private theorem step_of_loads (scan : FieldScan) {slot : Nat} (h : LoadsSlot i slot) :
    step cls scan i = (cls.resolve (cls.pool.stringConstant slot)).map
      fun found => { scan with pending := found } := by
  rw [step, (constantSlot?_eq_some_iff i slot).mpr h]
  cases hfound : cls.resolve (cls.pool.stringConstant slot) <;>
    simp [hfound, bind, Except.bind, Except.map, pure, Except.pure]

theorem constantSlot?_eq_none (h : ∀ slot, ¬ LoadsSlot i slot) : constantSlot? i = none := by
  rw [Option.eq_none_iff_forall_ne_some]
  intro slot hslot
  exact h slot ((constantSlot?_eq_some_iff i slot).mp hslot)

private theorem step_of_stores (scan : FieldScan) {text : String}
    (hpending : scan.pending = some text)
    (h : StoresField i) : step cls scan i = (cls.resolve (cls.pool.memberRef i.operand2)).map
      fun ref => { values := store cls ref text scan.values, pending := none } := by
  have hloads : ∀ slot, ¬ LoadsSlot i slot := fun slot hslot => hslot.not_stores h
  have hkeeps : keepsPending i = false := by
    rw [← Bool.not_eq_true, keepsPending_iff]
    exact h.not_leaves
  rw [step, constantSlot?_eq_none hloads]
  cases cls.resolve (cls.pool.memberRef i.operand2) <;>
    simp [hpending, (isStore_iff i).mpr h, hkeeps, bind, Except.bind, Except.map, pure,
      Except.pure]

theorem step_of_other (scan : FieldScan) (hloads : ∀ slot, ¬ LoadsSlot i slot)
    (h : scan.pending = none ∨ ¬ StoresField i) : step cls scan i = .ok
      { scan with pending := if keepsPending i then scan.pending else none } := by
  rw [step, constantSlot?_eq_none hloads]
  cases hpending : scan.pending with
  | none => rfl
  | some text =>
    have hstore : isStore i = false := by
      rw [← Bool.not_eq_true, isStore_iff]
      exact h.resolve_left (by simp [hpending])
    simp [hstore, bind, Except.bind, pure, Except.pure]

private theorem store_eq (ref : MemberRef) (text : String) (values : List (String × String)) :
    store cls ref text values = if ref = ⟨cls.name, ref.name, "Ljava/lang/String;"⟩ then
      Assoc.putIfAbsent ref.name text values else values := by
  obtain ⟨owner, name, descriptor⟩ := ref
  simp [store]

/-- The scan goes on behind place `j`: it carries what is pending there, and has set a value exactly
if the place assigns one. -/
structure Advances (cls : ClassFile) (body : List Code.Instruction) (j : Nat)
    (scan next : FieldScan) : Prop where
  resolved : ¬ FailsAt cls body j
  pending : ∀ text, next.pending = some text ↔ Pending cls body (j + 1) text
  values : (∃ entry, Assigns cls body j entry ∧
      next.values = Assoc.putIfAbsent entry.1 entry.2 scan.values) ∨
    (∀ entry, ¬ Assigns cls body j entry) ∧ next.values = scan.values

private theorem advances_of_loads (scan : FieldScan) (hi : body[j]? = some i) {slot : Nat}
    (hslot : LoadsSlot i slot) {found : Option String}
    (hfound : cls.pool.stringConstant slot = .ok found) :
    Advances cls body j scan { scan with pending := found } := by
  constructor
  · intro ⟨i', hi', hfails⟩
    cases hi.symm.trans hi'
    rcases hfails with ⟨slot', fault, hslot', hfault⟩ | ⟨hstores, -⟩
    · rw [hslot'.unique hslot, hfound] at hfault
      cases hfault
    · exact hslot.not_stores hstores
  · intro text
    rw [pending_succ hi]
    constructor
    · intro htext
      exact .inl ⟨slot, hslot, hfound.trans (congrArg _ htext)⟩
    · intro h
      rcases h with ⟨slot', hslot', htext⟩ | ⟨hleaves, -⟩
      · rw [hslot'.unique hslot, hfound] at htext
        cases htext
        rfl
      · exact absurd hleaves hslot.not_leaves
  · refine .inr ⟨?_, rfl⟩
    intro entry ⟨i', hi', hstores, _⟩
    cases hi.symm.trans hi'
    exact hslot.not_stores hstores

private theorem advances_of_stores (scan : FieldScan) (hi : body[j]? = some i)
    (hstores : StoresField i)
    {text : String} (htext : ∀ text', Pending cls body j text' ↔ text' = text) {ref : MemberRef}
    (href : cls.pool.memberRef i.operand2 = .ok ref) :
    Advances cls body j scan { values := store cls ref text scan.values, pending := none } := by
  constructor
  · intro ⟨i', hi', hfails⟩
    cases hi.symm.trans hi'
    rcases hfails with ⟨slot, fault, hslot, -⟩ | ⟨-, -, fault, hfault⟩
    · exact hslot.not_stores hstores
    · rw [href] at hfault
      cases hfault
  · intro text'
    rw [pending_succ hi]
    constructor
    · intro h
      cases h
    · intro h
      rcases h with ⟨slot, hslot, -⟩ | ⟨hleaves, -⟩
      · exact absurd hstores hslot.not_stores
      · exact absurd hleaves hstores.not_leaves
  · rw [store_eq]
    split
    · next hown =>
      refine .inl ⟨(ref.name, text), ⟨i, hi, hstores, ?_, (htext text).mpr rfl⟩, rfl⟩
      rw [href]
      exact congrArg _ hown
    · next hother =>
      refine .inr ⟨?_, rfl⟩
      intro entry ⟨i', hi', _, href', _⟩
      cases hi.symm.trans hi'
      cases href.symm.trans href'
      exact hother rfl

theorem advances_of_other (scan : FieldScan) (hi : body[j]? = some i)
    (hpending : ∀ text, scan.pending = some text ↔ Pending cls body j text)
    (hloads : ∀ slot, ¬ LoadsSlot i slot) (h : scan.pending = none ∨ ¬ StoresField i) :
    Advances cls body j scan
      { scan with pending := if keepsPending i then scan.pending else none } := by
  have hnot : StoresField i → ∀ text, ¬ Pending cls body j text := by
    intro hstores text htext
    rw [← hpending, h.resolve_right (not_not.mpr hstores)] at htext
    cases htext
  constructor
  · intro ⟨i', hi', hfails⟩
    cases hi.symm.trans hi'
    rcases hfails with ⟨slot, fault, hslot, -⟩ | ⟨hstores, ⟨text, htext⟩, -⟩
    · exact hloads slot hslot
    · exact hnot hstores text htext
  · intro text
    rw [pending_succ hi, ← hpending, ← keepsPending_iff]
    by_cases hkeeps : keepsPending i = true <;> simp [hkeeps, hloads]
  · refine .inr ⟨?_, rfl⟩
    intro entry ⟨i', hi', hstores, _, htext⟩
    cases hi.symm.trans hi'
    exact hnot hstores entry.2 htext

private theorem step_outcome {scan : FieldScan} (hi : body[j]? = some i)
    (hpending : ∀ text, scan.pending = some text ↔ Pending cls body j text) :
    (∃ e, step cls scan i = .error e ∧ FailsAt cls body j) ∨
      ∃ next, step cls scan i = .ok next ∧ Advances cls body j scan next := by
  by_cases hloads : ∃ slot, LoadsSlot i slot
  · obtain ⟨slot, hslot⟩ := hloads
    rw [step_of_loads scan hslot]
    cases hfound : cls.pool.stringConstant slot with
    | error fault => exact .inl ⟨_, rfl, i, hi, .inl ⟨slot, fault, hslot, hfound⟩⟩
    | ok found => exact .inr ⟨_, rfl, advances_of_loads scan hi hslot hfound⟩
  · rw [not_exists] at hloads
    by_cases hstores : StoresField i
    · cases htext : scan.pending with
      | none =>
        rw [step_of_other scan hloads (.inl htext)]
        exact .inr ⟨_, rfl, advances_of_other scan hi hpending hloads (.inl htext)⟩
      | some text =>
        have hpends : ∀ text', Pending cls body j text' ↔ text' = text := by
          intro text'
          rw [← hpending, htext, Option.some.injEq, eq_comm]
        rw [step_of_stores scan htext hstores]
        cases href : cls.pool.memberRef i.operand2 with
        | error fault =>
          exact .inl ⟨_, rfl, i, hi, .inr ⟨hstores, ⟨text, (hpends text).mpr rfl⟩, fault, href⟩⟩
        | ok ref => exact .inr ⟨_, rfl, advances_of_stores scan hi hstores hpends href⟩
    · rw [step_of_other scan hloads (.inr hstores)]
      exact .inr ⟨_, rfl, advances_of_other scan hi hpending hloads (.inr hstores)⟩

/-! ## The scan of a method -/

/-- Place `j` assigns a value, and no place from `n` on fails before it. -/
def AssignsFrom (cls : ClassFile) (body : List Code.Instruction) (n j : Nat) : Prop :=
  n ≤ j ∧ (∀ f, n ≤ f → f ≤ j → ¬ FailsAt cls body f) ∧ ∃ entry, Assigns cls body j entry

theorem assignsFrom_iff {n : Nat} (h : ¬ FailsAt cls body n) : AssignsFrom cls body n j ↔
    (j = n ∧ ∃ entry, Assigns cls body n entry) ∨ AssignsFrom cls body (n + 1) j := by
  constructor
  · intro ⟨hj, hnone, hassigns⟩
    rcases Nat.eq_or_lt_of_le hj with rfl | hlt
    · exact .inl ⟨rfl, hassigns⟩
    · exact .inr ⟨hlt, fun f hf => hnone f (Nat.le_of_succ_le hf), hassigns⟩
  · intro hj
    rcases hj with ⟨rfl, hassigns⟩ | ⟨hj, hnone, hassigns⟩
    · refine ⟨Nat.le_refl j, fun f hf hfj => ?_, hassigns⟩
      rwa [Nat.le_antisymm hfj hf]
    · refine ⟨Nat.le_of_succ_le hj, fun f hf hfj => ?_, hassigns⟩
      rcases Nat.eq_or_lt_of_le hf with rfl | hlt
      · exact h
      · exact hnone f hlt hfj

private theorem not_assignsFrom_of_failsAt {n : Nat} (h : FailsAt cls body n) :
    ¬ AssignsFrom cls body n j := by
  intro ⟨hj, hnone, _⟩
  exact hnone n (Nat.le_refl n) hj h

private theorem not_assignsFrom_of_length_le {n : Nat} (h : body.length ≤ n) :
    ¬ AssignsFrom cls body n j := by
  intro ⟨hj, _, entry, i, hi, _⟩
  rw [List.getElem?_eq_none (Nat.le_trans h hj)] at hi
  cases hi

/-- The run from any place on, with what is pending there, sets the values that are assigned from
there on. -/
theorem run_outcome (done rest : List Code.Instruction) (scan : FieldScan)
    (hpending : ∀ text, scan.pending = some text ↔ Pending cls (done ++ rest) done.length text) :
    ∃ places : List Nat, ∃ entries, places.Pairwise (· < ·) ∧
      (∀ j, j ∈ places ↔ AssignsFrom cls (done ++ rest) done.length j) ∧
      List.Forall₂ (Assigns cls (done ++ rest)) places entries ∧
      run cls scan rest = Assoc.addAll entries scan.values := by
  induction rest generalizing done scan with
  | nil =>
    refine ⟨[], [], .nil, fun j => ?_, .nil, rfl⟩
    exact iff_of_false List.not_mem_nil (not_assignsFrom_of_length_le (by simp))
  | cons i rest ih =>
    have hi : (done ++ i :: rest)[done.length]? = some i := by simp
    rcases step_outcome hi hpending with ⟨e, hstep, hfails⟩ | ⟨next, hstep, hnext⟩
    · have hrun : run cls scan (i :: rest) = scan.values := by rw [run, hstep]
      refine ⟨[], [], .nil, fun j => ?_, .nil, hrun⟩
      exact iff_of_false List.not_mem_nil (not_assignsFrom_of_failsAt hfails)
    · have hrest := ih (done ++ [i]) next (by simpa using hnext.pending)
      rw [List.append_assoc, List.singleton_append, List.length_append, List.length_singleton]
        at hrest
      obtain ⟨places, entries, hordered, hplaces, hentries, hrun⟩ := hrest
      have hrun' : run cls scan (i :: rest) = Assoc.addAll entries next.values := by
        rw [run, hstep]
        exact hrun
      rcases hnext.values with ⟨entry, hassigns, hvalues⟩ | ⟨hnone, hvalues⟩
      · refine ⟨done.length :: places, entry :: entries, ?_, ?_, .cons hassigns hentries, ?_⟩
        · apply List.pairwise_cons.mpr
          exact ⟨fun j hj => ((hplaces j).mp hj).1, hordered⟩
        · intro j
          rw [List.mem_cons, hplaces, assignsFrom_iff hnext.resolved,
            and_iff_left ⟨entry, hassigns⟩]
        · rw [hrun', hvalues]
          rfl
      · refine ⟨places, entries, hordered, ?_, hentries, by rw [hrun', hvalues]⟩
        intro j
        rw [hplaces, assignsFrom_iff hnext.resolved]
        simp [hnone]

private theorem exists_isAssignments (cls : ClassFile) (body : List Code.Instruction)
    (values : List (String × String)) : ∃ entries, IsAssignments cls body entries ∧
      run cls { values } body = Assoc.addAll entries values := by
  have hstart : ∀ text, none = some text ↔ Pending cls ([] ++ body) 0 text := by
    simp [pending_zero]
  obtain ⟨places, entries, hordered, hplaces, hentries, hrun⟩ :=
    run_outcome [] body { values } hstart
  refine ⟨entries, ⟨places, hordered, ?_, hentries⟩, hrun⟩
  simpa [AssignsFrom] using hplaces

end FieldScan

/-! ## The strings of a class -/

/-- The fields that are declared with a text, in order. -/
def declaredTexts (fields : List Field) : List (String × String) :=
  fields.filterMap fun f => match f.constant with
    | some (.text text) => some (f.name, text)
    | _ => none

/-- The code of the constructors and of the static initializer, in order. -/
def initializers (cls : ClassFile) : List Bytes :=
  cls.methods.filterMap fun m => if m.name = "<init>" ∨ m.name = "<clinit>" then m.code else none

private theorem declaredStrings_eq (fields : List Field) :
    declaredStrings fields = Assoc.putAll (declaredTexts fields) [] := by
  rw [declaredStrings, Assoc.putAll, declaredTexts, List.foldl_filterMap]
  congr 1
  funext values f
  rcases f.constant with _ | (_ | _ | _ | _ | _) <;> rfl

private theorem fieldStrings_eq (cls : ClassFile) :
    fieldStrings cls = (initializers cls).foldl
      (fun values code => FieldScan.run cls { values } (Code.list code).instructions)
      (declaredStrings cls.fields) := by
  rw [fieldStrings, initializers, List.foldl_filter, List.foldl_filterMap]
  congr 1
  funext values m
  simp only [isInitializer, Bool.or_eq_true, beq_iff_eq]
  split
  · cases m.code <;> rfl
  · rfl

private theorem foldl_run_outcome (cls : ClassFile) (codes : List Bytes)
    (values : List (String × String)) : ∃ stored : List (List (String × String)),
      List.Forall₂ (fun code => IsAssignments cls (Code.list code).instructions) codes stored ∧
      codes.foldl (fun values code => FieldScan.run cls { values } (Code.list code).instructions)
        values = Assoc.addAll stored.flatten values := by
  induction codes generalizing values with
  | nil => exact ⟨[], .nil, rfl⟩
  | cons code codes ih =>
    obtain ⟨entries, hentries, hrun⟩ :=
      FieldScan.exists_isAssignments cls (Code.list code).instructions values
    obtain ⟨stored, hstored, hrest⟩ := ih (Assoc.addAll entries values)
    refine ⟨entries :: stored, .cons hentries hstored, ?_⟩
    rw [List.foldl_cons, hrun, hrest, List.flatten_cons, Assoc.addAll_append]

/-- **The strings of a class's fields.** A declared text counts before every assignment, and of
several the last; then the first assignment counts, in the order of the initializers and of the
instructions in each. An initializer that breaks off keeps what it assigned before. -/
theorem fieldStrings_outcome (cls : ClassFile) :
    ∃ stored : List (List (String × String)),
      List.Forall₂ (fun code => IsAssignments cls (Code.list code).instructions)
        (initializers cls) stored ∧
      fieldStrings cls =
        Assoc.addAll stored.flatten (Assoc.putAll (declaredTexts cls.fields) []) ∧
      ((fieldStrings cls).map (·.1)).Nodup ∧
      ∀ name, Assoc.get? name (fieldStrings cls) =
        (Assoc.get? name (declaredTexts cls.fields).reverse).or
          (Assoc.get? name stored.flatten) := by
  obtain ⟨stored, hstored, hvalues⟩ :=
    foldl_run_outcome cls (initializers cls) (declaredStrings cls.fields)
  rw [← fieldStrings_eq, declaredStrings_eq] at hvalues
  refine ⟨stored, hstored, hvalues, ?_, fun name => ?_⟩
  · rw [hvalues]
    exact Assoc.nodup_keys_addAll _ (Assoc.nodup_keys_putAll _ List.nodup_nil)
  · rw [hvalues, Assoc.get?_addAll, Assoc.get?_putAll]
    simp [Assoc.get?]

/-- Its first constructor breaks off at a bad slot, behind the store of a constant. -/
def keyedClass : ClassFile :=
  { name := "A"
    pool :=
      { slots := #[none, some (.utf8 "A"), some (.classRef 1), some (.utf8 "key"),
          some (.utf8 "Ljava/lang/String;"), some (.nameAndType 3 4), some (.fieldRef 2 5),
          some (.utf8 "X-Key"), some (.string 7), some (.utf8 "id"), some (.nameAndType 9 4),
          some (.fieldRef 2 10)] }
    fields := [{ access := 0, name := "old", descriptor := "Ljava/lang/String;",
                 constant := some (.text "X-Old") }]
    methods :=
      [{ access := 0, name := "<init>", descriptor := "()V",
         code := some [0x12, 8, 0x2A, 0xB5, 0, 6, 0x12, 99, 0x12, 8, 0xB5, 0, 11] },
        { access := 0, name := "<clinit>", descriptor := "()V",
          code := some [0x12, 8, 0x00, 0xB3, 0, 6, 0x13, 0, 8, 0x59, 0xB3, 0, 11] }] }

example : fieldStrings keyedClass = [("old", "X-Old"), ("key", "X-Key"), ("id", "X-Key")] := by
  decide +kernel

end EndpointAudit.Trace
