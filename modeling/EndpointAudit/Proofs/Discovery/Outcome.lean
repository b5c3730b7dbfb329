import EndpointAudit.Discovery.Basic
import EndpointAudit.Proofs.ClassFile.Layout
import EndpointAudit.Proofs.ClassPath.Listing
import Mathlib.Data.List.TakeWhile

/-!
# What discovery finds

On a class path without broken archives discovery looks at every class that can be loaded, in the
order in which the types are listed; one that cannot be loaded leaves a notice and nothing else.
Looking for endpoints always comes to the end. Looking for configuration methods stops at the first
method whose descriptor has no result, and comes to the end where there is none.
-/

namespace EndpointAudit.Discovery

open ClassPath

/-- The class at a step of the listing, if it can be loaded. -/
def classAt? (cp : ClassPath) (visit : Visit) : Option ClassFile :=
  visit.type?.bind fun typeName => (cp.load typeName).toOption

/-- The notice at a step of the listing. -/
def noticeAt? (cp : ClassPath) : Visit → Option Notice
  | .skipped entry => some (.skippedEntry entry)
  | .broken _ => none
  | .type typeName =>
    match cp.load typeName with
    | .error (.unavailable reason) => some (.skippedClass typeName reason)
    | .error (.fatal _) | .ok _ => none

/-- The classes of a package that can be loaded. -/
def classes (cp : ClassPath) (package : String) : List ClassFile :=
  (cp.types package).filterMap fun typeName => (cp.load typeName).toOption

theorem visits_classes {cp : ClassPath} (h : cp.Intact) (package : String) :
    (cp.visits package).filterMap (classAt? cp) = classes cp package := by
  rw [classes, ← h.visits_types, List.filterMap_filterMap]
  rfl

theorem classAt?_type_eq_some_iff (cp : ClassPath) (typeName : String) (cls : ClassFile) :
    classAt? cp (.type typeName) = some cls ↔ cp.load typeName = .ok cls := by
  rw [classAt?, Visit.type?, Option.bind_some]
  cases cp.load typeName <;> simp [Except.toOption]

private theorem noticeAt?_of_class {cp : ClassPath} {visit : Visit} {cls : ClassFile}
    (h : classAt? cp visit = some cls) : noticeAt? cp visit = none := by
  cases visit with
  | skipped | broken => cases h
  | type typeName =>
    rw [classAt?_type_eq_some_iff] at h
    simp only [noticeAt?, h]

private theorem noticeAt?_eq_skippedClass {cp : ClassPath} {visit : Visit} {typeName : String}
    {reason : Unavailable} (h : noticeAt? cp visit = some (.skippedClass typeName reason)) :
    visit = .type typeName ∧ cp.load typeName = .error (.unavailable reason) := by
  cases visit with
  | skipped | broken => cases h
  | type typeName' =>
    rw [noticeAt?] at h
    split at h
    · next hload =>
      cases h
      exact ⟨rfl, hload⟩
    · cases h
    · cases h

/-! ## A search through the listing -/

/-- The search has come to its end: it has found what all classes hold that can be loaded, and has
a notice for each one that cannot. -/
structure Findings.IsComplete {α : Type} (result : Findings α) (cp : ClassPath) (package : String)
    (found : ClassFile → List α) (remarks : ClassFile → List Notice) : Prop where
  error_eq : result.error = none
  items_eq : result.items = (classes cp package).flatMap found
  remarks_eq : result.remarks = (classes cp package).flatMap remarks
  mem_notices : ∀ typeName reason, .skippedClass typeName reason ∈ result.notices ↔
    typeName ∈ cp.types package ∧ cp.load typeName = .error (.unavailable reason)

section Search

variable {α : Type} {cp : ClassPath} {search : Search α} {found : ClassFile → List α}
  {refusal? : ClassFile → Option ScanError}

/-- A step at a class is a look into it. -/
theorem findingsAt_class {visit : Visit} {cls : ClassFile} (h : classAt? cp visit = some cls) :
    findingsAt cp search visit = search.look cls := by
  cases visit with
  | skipped | broken => cases h
  | type typeName =>
    rw [classAt?_type_eq_some_iff] at h
    simp only [findingsAt, h]

/-- A step without a class leaves a notice only. -/
theorem findingsAt_no_class (hintact : cp.Intact) {visit : Visit}
    (hvisit : ∀ name, visit ≠ .broken name) (h : classAt? cp visit = none) :
    findingsAt cp search visit = { notices := (noticeAt? cp visit).toList } := by
  cases visit with
  | broken name => exact absurd rfl (hvisit name)
  | skipped => rfl
  | type typeName =>
    obtain ⟨reason, hload⟩ := hintact.load_unavailable h
    simp [findingsAt, noticeAt?, hload]

/-- A search goes on up to the first class that is refused. -/
theorem foldr_findingsAt (hintact : cp.Intact)
    (hfind : ∀ cls, search.find cls = (refusal? cls).elim (.ok (found cls)) .error)
    (visits : List Visit) (hvisits : ∀ name, .broken name ∉ visits) :
    visits.foldr (fun visit rest => (findingsAt cp search visit).append rest) {} =
      let before := visits.takeWhile fun visit =>
        (classAt? cp visit).all fun cls => (refusal? cls).isNone
      { items := (before.filterMap (classAt? cp)).flatMap found
        notices := before.filterMap (noticeAt? cp)
        remarks := (before.filterMap (classAt? cp)).flatMap search.remarks
        error := (visits.filterMap (classAt? cp)).findSome? refusal? } := by
  induction visits with
  | nil => rfl
  | cons visit rest ih =>
    have hrest := ih fun name hmem => hvisits name (List.mem_cons_of_mem _ hmem)
    rw [List.foldr_cons, hrest]
    cases hclass : classAt? cp visit with
    | none =>
      have hvisit : ∀ name, visit ≠ .broken name := by
        rintro name rfl
        exact hvisits name List.mem_cons_self
      rw [findingsAt_no_class hintact hvisit hclass]
      cases hnotice : noticeAt? cp visit <;>
        simp [Findings.append, Log.ext_iff, hclass, hnotice]
    | some cls =>
      rw [findingsAt_class hclass, Search.look, hfind cls]
      cases hrefusal : refusal? cls <;>
        simp [Findings.append, Log.ext_iff, hclass, hrefusal, noticeAt?_of_class hclass]

variable (refusal?) (hintact : cp.Intact)
  (hfind : ∀ cls, search.find cls = (refusal? cls).elim (.ok (found cls)) .error)
  {package : String}

include hintact hfind

/-- A search that refuses no class is complete. -/
theorem findIn_isComplete (hclear : ∀ cls ∈ classes cp package, refusal? cls = none) :
    (findIn cp package search).IsComplete cp package found search.remarks := by
  have hbefore : (cp.visits package).takeWhile (fun visit =>
      (classAt? cp visit).all fun cls => (refusal? cls).isNone) = cp.visits package := by
    rw [List.takeWhile_eq_self_iff]
    intro visit hvisit
    rw [Option.all_eq_true]
    intro cls hcls
    have hmem : cls ∈ classes cp package := by
      rw [← visits_classes hintact]
      exact List.mem_filterMap.mpr ⟨visit, hvisit, hcls⟩
    rw [hclear cls hmem, Option.isNone_none]
  rw [findIn, foldr_findingsAt hintact hfind _ (hintact.broken_not_mem_visits package), hbefore]
  dsimp only
  rw [visits_classes hintact]
  refine ⟨List.findSome?_eq_none_iff.mpr hclear, rfl, rfl, fun typeName reason => ?_⟩
  rw [List.mem_filterMap, ← hintact.visits_types, List.mem_filterMap]
  constructor
  · rintro ⟨visit, hvisit, hnotice⟩
    obtain ⟨rfl, hload⟩ := noticeAt?_eq_skippedClass hnotice
    exact ⟨⟨_, hvisit, rfl⟩, hload⟩
  · rintro ⟨⟨visit, hvisit, htype⟩, hload⟩
    obtain rfl := Visit.eq_type_of_type? htype
    exact ⟨_, hvisit, by simp [noticeAt?, hload]⟩

/-- A search ends at the first class that it refuses. -/
theorem findIn_refused {before after : List ClassFile} {cls : ClassFile} {e : ScanError}
    (hclasses : classes cp package = before ++ cls :: after)
    (hclear : ∀ cls ∈ before, refusal? cls = none) (hrefused : refusal? cls = some e) :
    (findIn cp package search).error = some e ∧
      (findIn cp package search).items = before.flatMap found := by
  have htake : (before ++ cls :: after).takeWhile (fun cls => (refusal? cls).isNone) = before := by
    rw [List.takeWhile_append_of_pos fun cls' hcls' => by rw [hclear cls' hcls']; rfl,
      List.takeWhile_cons_of_neg (by simp [hrefused]), List.append_nil]
  rw [findIn, foldr_findingsAt hintact hfind _ (hintact.broken_not_mem_visits package)]
  dsimp only
  rw [← List.takeWhile_filterMap, visits_classes hintact, hclasses, htake]
  refine ⟨?_, rfl⟩
  rw [List.findSome?_append, List.findSome?_eq_none_iff.mpr hclear, List.findSome?_cons, hrefused]
  rfl

end Search

/-! ## Configuration methods -/

/-- Whether a method is looked at and its descriptor does not say what it returns. -/
def isObscure (m : Method) : Bool := !m.isSynthetic && !m.descriptor.toList.contains ')'

/-- Whether a method is looked at and returns a filter chain. -/
def returnsFilterChain (m : Method) : Bool :=
  !m.isSynthetic && m.resultDescriptor?.any fun result =>
    Text.startsWith result "L" && Descriptor.typeName result == filterChainType

/-- The configuration method that a method is, if it returns a filter chain. -/
def filterChainMethod? (cls : ClassFile) (m : Method) : Option ConfigMethod :=
  if returnsFilterChain m then
    some { declaringType := cls.typeName, methodName := m.name, descriptor := some m.descriptor }
  else none

/-- The methods of a class that return a filter chain. -/
def filterChainMethods (cls : ClassFile) : List ConfigMethod :=
  cls.methods.filterMap (filterChainMethod? cls)

theorem resultOf_eq_none_iff (descriptor : String) :
    Descriptor.resultOf descriptor = none ↔ ')' ∉ descriptor.toList := by
  have hnil : descriptor.toList.dropWhile (· ≠ ')') = [] ↔ ')' ∉ descriptor.toList := by
    rw [List.dropWhile_eq_nil_iff]
    constructor
    · intro hall hmem
      simpa using hall ')' hmem
    · intro hnot c hc
      rw [decide_eq_true_iff]
      rintro rfl
      exact hnot hc
  rw [← hnil, Descriptor.resultOf]
  cases descriptor.toList.dropWhile (· ≠ ')') <;> simp

private theorem configMethod?_of_obscure (cls : ClassFile) {m : Method} (h : isObscure m = true) :
    configMethod? cls m = .error (.badDescriptor m.descriptor) := by
  simp only [isObscure, Bool.and_eq_true, Bool.not_eq_true', List.contains_eq_mem,
    decide_eq_false_iff_not] at h
  have hresult : m.resultDescriptor? = none := (resultOf_eq_none_iff m.descriptor).mpr h.2
  simp [configMethod?, h.1, hresult]

private theorem configMethod?_of_not_obscure (cls : ClassFile) {m : Method}
    (h : isObscure m = false) : configMethod? cls m = .ok (filterChainMethod? cls m) := by
  unfold filterChainMethod? returnsFilterChain
  cases hsynthetic : m.isSynthetic with
  | true => simp [configMethod?, hsynthetic]
  | false =>
    have hparen : ')' ∈ m.descriptor.toList := by simpa [isObscure, hsynthetic] using h
    have hresult : m.resultDescriptor? ≠ none :=
      fun hnone => (resultOf_eq_none_iff m.descriptor).mp hnone hparen
    obtain ⟨result, hsome⟩ := Option.ne_none_iff_exists'.mp hresult
    simp only [configMethod?, hsynthetic, hsome, Option.any_some, Bool.not_false, Bool.true_and,
      Bool.false_eq_true, if_false]
    split <;> rfl

private theorem mapM_configMethod? (cls : ClassFile) (methods : List Method) :
    methods.mapM (configMethod? cls) = (methods.find? isObscure).elim
      (.ok (methods.map (filterChainMethod? cls)))
      fun m => .error (.badDescriptor m.descriptor) := by
  induction methods with
  | nil => rfl
  | cons m rest ih =>
    rw [List.mapM_cons, ih]
    cases hobscure : isObscure m with
    | true =>
      rw [List.find?_cons_of_pos hobscure, configMethod?_of_obscure cls hobscure]
      rfl
    | false =>
      rw [List.find?_cons_of_neg (by simp [hobscure]), configMethod?_of_not_obscure cls hobscure]
      cases rest.find? isObscure <;> rfl

/-- The first method with an obscure descriptor is why a class is refused. -/
def obscurity? (cls : ClassFile) : Option ScanError :=
  (cls.methods.find? isObscure).map fun m => .badDescriptor m.descriptor

theorem configMethodsOf_eq (cls : ClassFile) :
    configMethodsOf cls = (obscurity? cls).elim (.ok (filterChainMethods cls)) .error := by
  rw [configMethodsOf, mapM_configMethod?, obscurity?]
  cases cls.methods.find? isObscure with
  | some m => rfl
  | none =>
    change Except.ok _ = Except.ok _
    rw [List.filterMap_map, filterChainMethods]
    rfl

theorem obscurity?_eq_none {cls : ClassFile} (h : ∀ m ∈ cls.methods, isObscure m = false) :
    obscurity? cls = none := by
  rw [obscurity?, Option.map_eq_none_iff, List.find?_eq_none]
  intro m hm
  rw [h m hm]
  decide

/-- The endpoints that a class declares, which are those of a controller. -/
def declaredEndpoints (cls : ClassFile) : List EndpointRecord :=
  if isController cls then controllerEndpoints cls else []

/-- **What discovery finds.** Whatever an intact class path holds, the search for endpoints is
complete. So is that for configuration methods if no method has an obscure descriptor; it ends with
an error at the first class that has such a method, and keeps what it has found before. -/
theorem discovery_outcome {cp : ClassPath} (h : cp.Intact) (package : String) :
    (endpoints cp package).IsComplete cp package declaredEndpoints controllerRemarks ∧
    ((∀ cls ∈ classes cp package, ∀ m ∈ cls.methods, isObscure m = false) →
      (configMethods cp package).IsComplete cp package filterChainMethods fun _ => []) ∧
    ∀ before cls after m, classes cp package = before ++ cls :: after →
      (∀ cls ∈ before, ∀ m ∈ cls.methods, isObscure m = false) →
      cls.methods.find? isObscure = some m →
      (configMethods cp package).error = some (.badDescriptor m.descriptor) ∧
        (configMethods cp package).items = before.flatMap filterChainMethods := by
  refine ⟨?_, ?_, ?_⟩
  · exact findIn_isComplete (fun _ => none) h (fun _ => rfl) fun _ _ => rfl
  · intro hclear
    apply findIn_isComplete obscurity? h configMethodsOf_eq
    intro cls hcls
    exact obscurity?_eq_none (hclear cls hcls)
  · intro before cls after m hclasses hclear hfirst
    have hrefused : obscurity? cls = some (.badDescriptor m.descriptor) := by
      rw [obscurity?, hfirst, Option.map_some]
    apply findIn_refused obscurity? h configMethodsOf_eq hclasses _ hrefused
    intro cls' hcls'
    exact obscurity?_eq_none (hclear cls' hcls')

/-! ## Two files in a folder -/

def oddAndSec (odd sec : Bytes) : ClassPath :=
  ⟨[⟨"app", .folder [(["Odd.class"], odd), (["Sec.class"], sec)] []⟩]⟩

theorem intact_oddAndSec (odd sec : Bytes) : (oddAndSec odd sec).Intact := by
  simp [Intact, oddAndSec]

theorem visits_oddAndSec (odd sec : Bytes) :
    (oddAndSec odd sec).visits "" = [.type "Odd", .type "Sec"] := by
  have hresources : folderResources [(["Odd.class"], odd), (["Sec.class"], sec)] [] =
      ["Odd.class", "Sec.class"] := by
    simp only [folderResources, List.map_cons, List.map_nil, List.flatMap_cons, List.flatMap_nil]
    rw [List.mergeSort_of_pairwise (by decide +kernel)]
    decide +kernel
  simp only [visits, oddAndSec, List.flatMap_cons, List.flatMap_nil, visitEntry, hresources]
  decide +kernel

private theorem types_oddAndSec (odd sec : Bytes) :
    (oddAndSec odd sec).types "" = ["Odd", "Sec"] := by
  rw [← (intact_oddAndSec odd sec).visits_types, visits_oddAndSec]
  rfl

/-- A class with one method and no code. -/
def oneMethod (typeName methodName descriptor : String) : ClassLayout where
  minor := 0
  major := 61
  constants := [.utf8 typeName, .classRef 1, .utf8 methodName, .utf8 descriptor]
  access := 0x21
  name := ⟨2, typeName⟩
  superName := none
  interfaces := []
  fields := []
  methods := [⟨1, ⟨3, methodName⟩, ⟨4, descriptor⟩, []⟩]
  attributes := []

def chainDescriptor : String := "()Lorg/springframework/security/web/SecurityFilterChain;"

/-- A file that is no class before one that configures a chain. -/
def truncatedPath : ClassPath :=
  oddAndSec [0xCA, 0xFE] (oneMethod "Sec" "chain" chainDescriptor).encode

theorem discovery_outcome_truncatedPath : truncatedPath.Intact ∧
    (configMethods truncatedPath "").error = none ∧
    (configMethods truncatedPath "").items = [⟨"Sec", "chain", some chainDescriptor⟩] ∧
    ∃ reason, .skippedClass "Odd" reason ∈ (configMethods truncatedPath "").notices := by
  have hintact : truncatedPath.Intact := intact_oddAndSec _ _
  have htypes : truncatedPath.types "" = ["Odd", "Sec"] := types_oddAndSec _ _
  have hclear : ∀ cls ∈ classes truncatedPath "", ∀ m ∈ cls.methods, isObscure m = false := by
    rw [classes, htypes]
    decide +kernel
  have hcomplete := (discovery_outcome hintact "").2.1 hclear
  refine ⟨hintact, hcomplete.error_eq, ?_, ?_⟩
  · rw [hcomplete.items_eq, classes, htypes]
    decide +kernel
  · have hnone : (truncatedPath.load "Odd").toOption = none := by decide +kernel
    obtain ⟨reason, hload⟩ := hintact.load_unavailable hnone
    exact ⟨reason, (hcomplete.mem_notices "Odd" reason).mpr ⟨by simp [htypes], hload⟩⟩

/-- A method whose descriptor is `V` before a class that configures a chain. -/
def obscurePath : ClassPath :=
  oddAndSec (oneMethod "Odd" "odd" "V").encode (oneMethod "Sec" "chain" chainDescriptor).encode

/-- The chain behind the obscure descriptor is not found. -/
theorem configMethods_obscurePath : obscurePath.Intact ∧
    (configMethods obscurePath "").error = some (.badDescriptor "V") ∧
    (configMethods obscurePath "").items = [] := by
  have hvisits : obscurePath.visits "" = [.type "Odd", .type "Sec"] := visits_oddAndSec _ _
  rw [configMethods, findIn, hvisits]
  decide +kernel

end EndpointAudit.Discovery
