import EndpointAudit.Proofs.ClassPath.Listing
import EndpointAudit.Proofs.Data.Assoc
import EndpointAudit.Proofs.Text.Split

/-!
# Listing and reading agree

A class path is listed by file names, from which types are made, and read by type, from which file
names are made. On class paths with ordinary names every type that is listed can be read, and what
is read is what the first entry holds that has the type.
-/

namespace EndpointAudit.ClassPath

/-! ## What entries hold -/

/-- The last member with a name. -/
def IsLastMember (members : List (String × Bytes)) (name : String) (bytes : Bytes) : Prop :=
  ∃ before after, members = before ++ (name, bytes) :: after ∧ ∀ m ∈ after, m.1 ≠ name

/-- An entry holds a class file with the given content: a folder at its place, an archive at its
top level or else in the first of its folders for classes that has it. -/
def Holds (entry : ClassPathEntry) (resource : String) (bytes : Bytes) : Prop :=
  match entry.content with
  | .folder files _ => ∃ path, (path, bytes) ∈ files ∧ Text.join "/" path = resource
  | .archive members => ∃ before folder after,
      ["", "BOOT-INF/classes/", "WEB-INF/classes/"] = before ++ folder :: after ∧
      (∀ other ∈ before, ∀ m ∈ members, m.1 ≠ other ++ resource) ∧
      IsLastMember members (folder ++ resource) bytes
  | .brokenArchive | .other => False

/-- An entry has a file with the given name, where one leading folder for classes is left out of
the names in an archive. -/
def Has (entry : ClassPathEntry) (resource : String) : Prop :=
  match entry.content with
  | .folder files _ => ∃ f ∈ files, Text.join "/" f.1 = resource
  | .archive members => ∃ m ∈ members,
      m.1 = "BOOT-INF/classes/" ++ resource ∨ m.1 = "WEB-INF/classes/" ++ resource ∨
      m.1 = resource ∧ Text.startsWith resource "BOOT-INF/classes/" = false ∧
        Text.startsWith resource "WEB-INF/classes/" = false
  | .brokenArchive | .other => False

/-- A file that holds a class, and not the description of a module or a package. -/
def IsClassFile (resource : String) : Prop :=
  Text.endsWith resource ".class" = true ∧ Text.endsWith resource "module-info.class" = false ∧
    Text.endsWith resource "package-info.class" = false

/-- The only dot of the name is that of its suffix, and no part of its path is empty. -/
def IsPlain (resource : String) : Prop :=
  '.' ∉ (Text.dropLast 6 resource).toList ∧ "" ∉ Text.splitOn '/' resource

instance (resource : String) : Decidable (IsClassFile resource) :=
  inferInstanceAs (Decidable (_ ∧ _))

instance (resource : String) : Decidable (IsPlain resource) :=
  inferInstanceAs (Decidable (_ ∧ _))

/-- A package is empty, or is made of segments that are not empty and do not hold a slash. -/
def IsPackage (package : String) : Prop :=
  package = "" ∨ '/' ∉ package.toList ∧ "" ∉ Text.splitOn '.' package

/-- The folders in a folder, at any depth. -/
def subfolders (files : List (List String × Bytes)) (folders : List (List String)) :
    List (List String) :=
  files.flatMap (fun f => parents f.1) ++ folders ++ folders.flatMap parents

/-- Names have no slash, and no folder is named like a class. -/
def IsRegularEntry (entry : ClassPathEntry) : Prop :=
  match entry.content with
  | .folder files folders =>
    (∀ f ∈ files, ∀ part ∈ f.1, '/' ∉ part.toList) ∧
      ∀ place ∈ subfolders files folders, Text.endsWith (place.getLastD "") ".class" = false
  | _ => True

instance (entry : ClassPathEntry) : Decidable (IsRegularEntry entry) :=
  match entry with
  | ⟨_, .folder _ _⟩ => inferInstanceAs (Decidable (_ ∧ _))
  | ⟨_, .archive _⟩ | ⟨_, .brokenArchive⟩ | ⟨_, .other⟩ => isTrue trivial

/-- All archives can be opened, folders hold files with ordinary names, and all class files have
plain names. -/
structure IsRegular (cp : ClassPath) : Prop where
  intact : cp.Intact
  entries : ∀ entry ∈ cp.entries, IsRegularEntry entry
  names : ∀ entry ∈ cp.entries, ∀ r, Has entry r → IsClassFile r → IsPlain r

/-- The types that are met when a package is listed. -/
def listed (cp : ClassPath) (package : String) : List String :=
  (cp.visits package).filterMap Visit.type?

/-! ## Names -/

theorem exists_base {r : String} (h : IsClassFile r) :
    ∃ base, r = base ++ ".class" ∧ Text.dropLast 6 r = base := by
  obtain ⟨cs, hcs⟩ := (Text.endsWith_iff _ _).mp h.1
  refine ⟨String.ofList cs, ?_, ?_⟩
  · rw [← String.toList_inj, String.toList_append, String.toList_ofList, hcs]
  · rw [Text.dropLast, ← hcs]
    simp

theorem resourceOf_typeOf {r : String} (h : IsClassFile r) (hplain : IsPlain r) :
    resourceOf (typeOf r) = r := by
  obtain ⟨base, hr, hbase⟩ := exists_base h
  have hdot : '.' ∉ base.toList := hbase ▸ hplain.1
  rw [resourceOf, typeOf, hbase, Text.replaceChar_replaceChar hdot, ← hr]

theorem isAbsolute_eq_false {r : String} (h : IsPlain r) : FileName.isAbsolute r = false := by
  rw [Bool.eq_false_iff]
  intro habsolute
  obtain ⟨cs, hcs⟩ := (Text.startsWith_iff _ _).mp habsolute
  have htext : r.toList = [] ++ '/' :: cs := hcs.symm
  exact h.2 (Text.empty_mem_splitOn htext (.inl rfl))

theorem components_eq {r : String} (h : IsClassFile r) (hplain : IsPlain r) :
    FileName.components r = Text.splitOn '/' r := by
  obtain ⟨base, hr, hbase⟩ := exists_base h
  have hdot : '.' ∉ base.toList := hbase ▸ hplain.1
  have hsuffix : '/' ∉ ".class".toList := by decide
  obtain ⟨parts, last, hparts, hsplit⟩ := Text.exists_splitAtChar_append '/' base.toList hsuffix
  apply List.filter_eq_self.mpr
  intro part hpart
  have hempty : part ≠ "" := fun heq => hplain.2 (heq ▸ hpart)
  have hplace : part ≠ "." := by
    rintro rfl
    obtain ⟨cs, hcs, heq⟩ := List.mem_map.mp hpart
    have hchars : cs = ['.'] := by simpa using congrArg String.toList heq
    rw [hr, String.toList_append, hsplit, hchars, List.mem_append, List.mem_singleton] at hcs
    rcases hcs with hfront | hlast
    · have hmem : ['.'] ∈ Text.splitAtChar '/' base.toList := by simp [hparts, hfront]
      exact hdot (Text.mem_of_mem_splitAtChar hmem (by simp))
    · have hlength := congrArg List.length hlast
      simp at hlength
  simp [hempty, hplace]

private theorem trimSlashes_eq_self {cs : List Char} (hfirst : cs.head? ≠ some '/')
    (hlast : cs.getLast? ≠ some '/') : packageStart.trimSlashes cs = cs := by
  have hdrop {cs : List Char} (h : cs.head? ≠ some '/') : cs.dropWhile (· == '/') = cs := by
    cases cs with
    | nil => rfl
    | cons c cs => exact List.dropWhile_cons_of_neg (by simpa using h)
  rw [packageStart.trimSlashes, hdrop hfirst, hdrop (by rwa [List.head?_reverse]),
    List.reverse_reverse]

private theorem packageStart_eq {package : String} (hslash : '/' ∉ package.toList)
    (hsegments : "" ∉ Text.splitOn '.' package) :
    packageStart package = Text.replaceChar '.' '/' package ++ "/" := by
  have hends (c : Char) (hc : c ∈ package.toList) (hdot : c ≠ '.') :
      (if c = '.' then '/' else c) ≠ '/' := by
    rw [if_neg hdot]
    exact fun heq => hslash (heq ▸ hc)
  have hfirst : (Text.replaceChar '.' '/' package).toList.head? ≠ some '/' := by
    rw [Text.toList_replaceChar, List.head?_map]
    intro h
    obtain ⟨c, hc, heq⟩ := Option.map_eq_some_iff.mp h
    obtain ⟨cs, hcs⟩ := List.head?_eq_some_iff.mp hc
    refine hends c (by simp [hcs]) ?_ heq
    rintro rfl
    exact hsegments (Text.empty_mem_splitOn hcs (.inl rfl))
  have hlast : (Text.replaceChar '.' '/' package).toList.getLast? ≠ some '/' := by
    rw [Text.toList_replaceChar, List.getLast?_map]
    intro h
    obtain ⟨c, hc, heq⟩ := Option.map_eq_some_iff.mp h
    obtain ⟨cs, hcs⟩ := List.getLast?_eq_some_iff.mp hc
    refine hends c (by simp [hcs]) ?_ heq
    rintro rfl
    exact hsegments (Text.empty_mem_splitOn hcs (.inr rfl))
  have hne : Text.replaceChar '.' '/' package ≠ "" := by
    intro h
    have hchars := congrArg String.toList h
    rw [Text.toList_replaceChar] at hchars
    have hpackage : package = "" := String.toList_eq_nil_iff.mp (List.map_eq_nil_iff.mp hchars)
    exact hsegments (by rw [hpackage]; decide)
  rw [packageStart, trimSlashes_eq_self hfirst hlast, String.ofList_toList]
  exact if_neg hne

private theorem startsWith_packageStart {package r : String} (hslash : '/' ∉ package.toList)
    (hsegments : "" ∉ Text.splitOn '.' package) (h : IsClassFile r) (hplain : IsPlain r) :
    Text.startsWith r (packageStart package) = Text.startsWith (typeOf r) (package ++ ".") := by
  obtain ⟨base, hr, hbase⟩ := exists_base h
  have hdot : '.' ∉ base.toList := hbase ▸ hplain.1
  have htext : r.toList = base.toList ++ '.' :: "class".toList := by
    rw [hr, String.toList_append]
    rfl
  have hthere : Text.replaceChar '.' '/' (package ++ ".") =
      Text.replaceChar '.' '/' package ++ "/" := Text.replaceChar_append _ _ _ _
  have hback : Text.replaceChar '/' '.' (Text.replaceChar '.' '/' package ++ "/") =
      package ++ "." := by
    rw [Text.replaceChar_append, Text.replaceChar_replaceChar hslash]
    rfl
  rw [packageStart_eq hslash hsegments, typeOf, hbase, Bool.eq_iff_iff]
  constructor
  · intro hstart
    rw [← hback]
    apply Text.startsWith_replaceChar
    rw [Text.startsWith_iff, htext] at hstart
    rw [Text.startsWith_iff]
    apply Text.prefix_of_prefix_append_cons ?_ hstart
    rw [String.toList_append, List.mem_append, not_or]
    exact ⟨Text.not_mem_replaceChar (by decide) package, by decide⟩
  · intro hstart
    have hresource := Text.startsWith_replaceChar '.' '/' hstart
    rw [hthere, Text.replaceChar_replaceChar hdot, Text.startsWith_iff] at hresource
    rw [Text.startsWith_iff, htext]
    exact hresource.trans (List.prefix_append _ _)

/-! ## Listing -/

private theorem mem_folderResources_iff {files : List (List String × Bytes)}
    {folders : List (List String)} {r : String} (hfolders : ∀ place ∈ subfolders files folders,
      Text.endsWith (place.getLastD "") ".class" = false)
    (h : Text.endsWith r ".class" = true) :
    r ∈ folderResources files folders ↔ ∃ f ∈ files, Text.join "/" f.1 = r := by
  have hnodes (place : List String) : place ∈ files.map (·.1) ++ files.flatMap
      (fun f => parents f.1) ++ folders ++ folders.flatMap parents ↔
        (∃ f ∈ files, f.1 = place) ∨ place ∈ subfolders files folders := by
    simp only [subfolders, List.mem_append, List.mem_map, or_assoc]
  simp only [folderResources, List.mem_map, List.mem_mergeSort, List.mem_filter,
    List.mem_eraseDups, hnodes]
  constructor
  · rintro ⟨place, ⟨hfile | hfolder, hclass⟩, rfl⟩
    · obtain ⟨f, hf, rfl⟩ := hfile
      exact ⟨f, hf, rfl⟩
    · rw [hfolders place hfolder] at hclass
      cases hclass
  · rintro ⟨f, hf, rfl⟩
    exact ⟨f.1, ⟨.inl ⟨f, hf, rfl⟩, Text.endsWith_getLastD_of_join rfl (by decide) h⟩, rfl⟩

theorem withoutClassFolder_append {folder : String} (h : folder ∈ classFolders) (rest : String) :
    withoutClassFolder (folder ++ rest) = rest := by
  have hfind : classFolders.find? (Text.startsWith (folder ++ rest) ·) = some folder := by
    have hstart := Text.startsWith_append folder rest
    simp only [classFolders, List.mem_cons, List.not_mem_nil, or_false] at h
    rcases h with rfl | rfl
    · exact List.find?_cons_of_pos hstart
    · have hother : Text.startsWith ("WEB-INF/classes/" ++ rest) "BOOT-INF/classes/" = false := by
        rw [Text.startsWith, String.toList_append]
        rfl
      rw [classFolders, List.find?_cons_of_neg (by simp [hother]), List.find?_cons_of_pos hstart]
  rw [withoutClassFolder, hfind]
  simp only [String.toList_append, ← String.length_toList, List.drop_left, String.ofList_toList]

theorem withoutClassFolder_of_not {name : String}
    (h : ∀ folder ∈ classFolders, Text.startsWith name folder = false) :
    withoutClassFolder name = name := by
  have hfind : classFolders.find? (Text.startsWith name ·) = none :=
    List.find?_eq_none.mpr fun folder hfolder => by simp [h folder hfolder]
  rw [withoutClassFolder, hfind]

theorem withoutClassFolder_eq_iff (name r : String) : withoutClassFolder name = r ↔
    name = "BOOT-INF/classes/" ++ r ∨ name = "WEB-INF/classes/" ++ r ∨
      name = r ∧ Text.startsWith r "BOOT-INF/classes/" = false ∧
        Text.startsWith r "WEB-INF/classes/" = false := by
  constructor
  · rintro rfl
    by_cases hfolder : ∃ folder ∈ classFolders, Text.startsWith name folder = true
    · obtain ⟨folder, hfolder, hstart⟩ := hfolder
      obtain ⟨rest, rfl⟩ := Text.exists_of_startsWith hstart
      rw [withoutClassFolder_append hfolder]
      simp only [classFolders, List.mem_cons, List.not_mem_nil, or_false] at hfolder
      rcases hfolder with rfl | rfl
      · exact .inl rfl
      · exact .inr (.inl rfl)
    · have hnot : ∀ folder ∈ classFolders, Text.startsWith name folder = false := by
        simpa using hfolder
      rw [withoutClassFolder_of_not hnot]
      exact .inr (.inr ⟨rfl, hnot _ (by simp [classFolders]), hnot _ (by simp [classFolders])⟩)
  · rintro (rfl | rfl | ⟨rfl, hboot, hweb⟩)
    · exact withoutClassFolder_append (by simp [classFolders]) r
    · exact withoutClassFolder_append (by simp [classFolders]) r
    · exact withoutClassFolder_of_not (by simp [classFolders, hboot, hweb])

theorem mem_resources_iff {entry : ClassPathEntry} (hentry : IsRegularEntry entry) {r : String}
    (h : IsClassFile r) : r ∈ resources entry ↔ Has entry r := by
  unfold IsRegularEntry at hentry
  unfold resources Has
  cases hcontent : entry.content with
  | folder files folders =>
    rw [hcontent] at hentry
    exact mem_folderResources_iff hentry.2 h.1
  | archive members =>
    simp only [archiveResources, List.mem_map, List.mem_mergeSort, withoutClassFolder_eq_iff]
    simp
  | brokenArchive => simp
  | other => simp

theorem isClassIn_iff (start r : String) :
    isClassIn start r = true ↔ Text.startsWith r start = true ∧ IsClassFile r := by
  simp only [isClassIn, IsClassFile, Bool.and_eq_true, Bool.not_eq_true', and_assoc]

theorem isClassIn_empty_iff (r : String) :
    isClassIn (packageStart "") r = true ↔ IsClassFile r := by
  have hstart : Text.startsWith r (packageStart "") = true := by
    rw [Text.startsWith_iff, show packageStart "" = "" by decide]
    exact List.nil_prefix
  rw [isClassIn_iff]
  exact and_iff_right hstart

theorem IsRegular.mem_types_iff {cp : ClassPath} (h : cp.IsRegular) (t : String) :
    t ∈ cp.types "" ↔
      ∃ entry ∈ cp.entries, ∃ r, Has entry r ∧ IsClassFile r ∧ typeOf r = t := by
  simp only [types, List.mem_eraseDups, List.mem_map, List.mem_filter, List.mem_flatMap,
    isClassIn_empty_iff]
  constructor
  · rintro ⟨r, ⟨⟨entry, hentry, hr⟩, hclass⟩, rfl⟩
    exact ⟨entry, hentry, r, (mem_resources_iff (h.entries entry hentry) hclass).mp hr, hclass, rfl⟩
  · rintro ⟨entry, hentry, r, hr, hclass, rfl⟩
    exact ⟨r, ⟨⟨entry, hentry, (mem_resources_iff (h.entries entry hentry) hclass).mpr hr⟩, hclass⟩,
      rfl⟩

private theorem IsRegular.types_package {cp : ClassPath} (h : cp.IsRegular) {package : String}
    (hslash : '/' ∉ package.toList) (hsegments : "" ∉ Text.splitOn '.' package) :
    cp.types package = (cp.types "").filter (Text.startsWith · (package ++ ".")) := by
  have hsame : ∀ r ∈ cp.entries.flatMap resources, isClassIn (packageStart package) r =
      (Text.startsWith (typeOf r) (package ++ ".") && isClassIn (packageStart "") r) := by
    intro r hr
    obtain ⟨entry, hentry, hr⟩ := List.mem_flatMap.mp hr
    rw [Bool.eq_iff_iff, Bool.and_eq_true, isClassIn_iff, isClassIn_empty_iff]
    refine and_congr_left fun hclass => ?_
    have hhas := (mem_resources_iff (h.entries entry hentry) hclass).mp hr
    rw [startsWith_packageStart hslash hsegments hclass (h.names entry hentry r hhas hclass)]
  rw [types, List.filter_congr hsame, types, ← Assoc.eraseDups_filter, List.filter_map,
    List.filter_filter]
  rfl

/-! ## Reading -/

private theorem member?_eq_some {members : List (String × Bytes)} {name : String} {bytes : Bytes}
    (h : member? members name = some bytes) : IsLastMember members name bytes := by
  obtain ⟨⟨name', bytes'⟩, hfound, rfl⟩ := Option.map_eq_some_iff.mp h
  obtain ⟨hname, after, before, hsplit, hafter⟩ := List.find?_eq_some_iff_append.mp hfound
  obtain rfl : name' = name := by simpa using hname
  refine ⟨before.reverse, after.reverse, ?_, ?_⟩
  · rw [← List.reverse_inj, hsplit]
    simp
  · intro m hm
    simpa using hafter m (List.mem_reverse.mp hm)

theorem member?_eq_none_iff {members : List (String × Bytes)} {name : String} :
    member? members name = none ↔ ∀ m ∈ members, m.1 ≠ name := by
  simp [member?]

private theorem file?_eq_some {files : List (List String × Bytes)} {r : String} {bytes : Bytes}
    (hclass : IsClassFile r) (hplain : IsPlain r) (h : file? files r = some bytes) :
    ∃ path, (path, bytes) ∈ files ∧ Text.join "/" path = r := by
  rw [file?, isAbsolute_eq_false hplain, components_eq hclass hplain] at h
  obtain ⟨⟨path, bytes'⟩, hfound, rfl⟩ := Option.map_eq_some_iff.mp h
  have hpath : path = Text.splitOn '/' r := by simpa using List.find?_some hfound
  refine ⟨path, List.mem_of_find?_eq_some hfound, ?_⟩
  rw [hpath, Text.join_splitOn rfl]

private theorem join_ne_of_file?_eq_none {files : List (List String × Bytes)} {r : String}
    (hnames : ∀ f ∈ files, ∀ part ∈ f.1, '/' ∉ part.toList) (hclass : IsClassFile r)
    (hplain : IsPlain r) (h : file? files r = none) : ∀ f ∈ files, Text.join "/" f.1 ≠ r := by
  rintro f hf rfl
  have hne : f.1 ≠ [] := by
    intro hnil
    rw [hnil] at hclass
    exact absurd hclass.1 (by decide)
  rw [file?, isAbsolute_eq_false hplain, components_eq hclass hplain,
    Text.splitOn_join rfl hne (hnames f hf)] at h
  have hnone := List.find?_eq_none.mp (Option.map_eq_none_iff.mp h) f hf
  simp at hnone

private theorem holds_of_readEntry {entry : ClassPathEntry} {r : String} {bytes : Bytes}
    (hclass : IsClassFile r) (hplain : IsPlain r)
    (h : readEntry entry r = .ok (some bytes)) : Holds entry r bytes := by
  unfold readEntry at h
  unfold Holds
  cases hcontent : entry.content with
  | folder files folders =>
    simp only [hcontent, Except.ok.injEq] at h
    exact file?_eq_some hclass hplain h
  | archive members =>
    simp only [hcontent, Except.ok.injEq] at h
    obtain ⟨before, folder, after, hsplit, hmember, hbefore⟩ := List.findSome?_eq_some_iff.mp h
    refine ⟨before, folder, after, hsplit, ?_, member?_eq_some hmember⟩
    exact fun other hother => member?_eq_none_iff.mp (hbefore other hother)
  | brokenArchive => simp [hcontent] at h
  | other => simp [hcontent] at h

/-- An entry in which nothing is found has no file of that name. -/
theorem not_holds_of_readEntry {entry : ClassPathEntry} (hentry : IsRegularEntry entry)
    {r : String} (hclass : IsClassFile r) (hplain : IsPlain r)
    (h : readEntry entry r = .ok none) : (∀ bytes, ¬ Holds entry r bytes) ∧ ¬ Has entry r := by
  unfold IsRegularEntry at hentry
  unfold readEntry at h
  unfold Holds Has
  cases hcontent : entry.content with
  | folder files folders =>
    simp only [hcontent, Except.ok.injEq] at h hentry
    have hnone := join_ne_of_file?_eq_none hentry.1 hclass hplain h
    constructor
    · rintro bytes ⟨path, hpath, heq⟩
      exact hnone _ hpath heq
    · rintro ⟨f, hf, heq⟩
      exact hnone f hf heq
  | archive members =>
    simp only [hcontent, Except.ok.injEq, List.findSome?_eq_none_iff, member?_eq_none_iff] at h
    have hplaces : "" :: classFolders = ["", "BOOT-INF/classes/", "WEB-INF/classes/"] := rfl
    rw [hplaces] at h
    constructor
    · rintro bytes ⟨before, folder, after, hsplit, -, earlier, later, hmembers, -⟩
      exact h folder (by simp [hsplit]) (folder ++ r, bytes) (by simp [hmembers]) rfl
    · rintro ⟨m, hm, hname⟩
      rcases hname with hboot | hweb | ⟨htop, -⟩
      · exact h "BOOT-INF/classes/" (by simp) m hm hboot
      · exact h "WEB-INF/classes/" (by simp) m hm hweb
      · exact h "" (by simp) m hm (by simp [htop])
  | brokenArchive => simp [hcontent] at h
  | other => simp

/-- Reading finds what the first entry holds that has the file. -/
theorem exists_first_holder {entries : List ClassPathEntry} {r : String}
    (hintact : ∀ entry ∈ entries, entry.content ≠ .brokenArchive)
    (hregular : ∀ entry ∈ entries, IsRegularEntry entry) (hclass : IsClassFile r)
    (hplain : IsPlain r) (h : ∃ entry ∈ entries, Has entry r) :
    ∃ before entry after bytes, entries = before ++ entry :: after ∧
      (∀ earlier ∈ before, ∀ bytes', ¬ Holds earlier r bytes') ∧ Holds entry r bytes ∧
      readFrom r entries = .ok (some bytes) := by
  induction entries with
  | nil => simp at h
  | cons entry rest ih =>
    cases hread : readEntry entry r with
    | error e => exact absurd hread (readEntry_ne_error (hintact entry (by simp)) r e)
    | ok found =>
      cases found with
      | some bytes =>
        refine ⟨[], entry, rest, bytes, rfl, by simp, holds_of_readEntry hclass hplain hread, ?_⟩
        rw [readFrom, hread]
      | none =>
        obtain ⟨hnot, hhas⟩ :=
          not_holds_of_readEntry (hregular entry (by simp)) hclass hplain hread
        have hrest : ∃ entry' ∈ rest, Has entry' r := by
          obtain ⟨entry', hmem, hentry'⟩ := h
          rcases List.mem_cons.mp hmem with rfl | hmem
          · exact absurd hentry' hhas
          · exact ⟨entry', hmem, hentry'⟩
        obtain ⟨before, holder, after, bytes, hsplit, hbefore, hholds, hfound⟩ :=
          ih (fun e he => hintact e (by simp [he])) (fun e he => hregular e (by simp [he])) hrest
        refine ⟨entry :: before, holder, after, bytes, by rw [hsplit]; rfl, ?_, hholds, ?_⟩
        · exact List.forall_mem_cons.mpr ⟨hnot, hbefore⟩
        · rw [readFrom, hread]
          exact hfound

/-- **Listing and reading agree.** On a regular class path the types of a package are listed once
each, in the order in which all types are listed, and all types are those of the class files that
the entries have. Every type that is listed is read from the first entry that holds it. -/
theorem listing_reading_agree {cp : ClassPath} (h : cp.IsRegular) :
    (∀ package, IsPackage package → (cp.listed package).Nodup ∧
      cp.listed package = (cp.listed "").filter
        fun t => package == "" || Text.startsWith t (package ++ ".")) ∧
    (∀ t, t ∈ cp.listed "" ↔
      ∃ entry ∈ cp.entries, ∃ r, Has entry r ∧ IsClassFile r ∧ typeOf r = t) ∧
    ∀ t ∈ cp.listed "", ∃ before entry after bytes, cp.entries = before ++ entry :: after ∧
      (∀ earlier ∈ before, ∀ bytes', ¬ Holds earlier (resourceOf t) bytes') ∧
      Holds entry (resourceOf t) bytes ∧ cp.read t = .ok bytes := by
  have hlisted (package : String) : cp.listed package = cp.types package :=
    h.intact.visits_types package
  refine ⟨?_, fun t => by rw [hlisted, h.mem_types_iff], ?_⟩
  · intro package hpackage
    rw [hlisted, hlisted]
    refine ⟨Assoc.nodup_eraseDups _, ?_⟩
    rcases hpackage with rfl | ⟨hslash, hsegments⟩
    · simp
    · have hne : package ≠ "" := by
        rintro rfl
        exact hsegments (by decide)
      simp only [beq_eq_false_iff_ne.mpr hne, Bool.false_or]
      exact h.types_package hslash hsegments
  · intro t ht
    rw [hlisted, h.mem_types_iff] at ht
    obtain ⟨entry, hentry, r, hhas, hclass, rfl⟩ := ht
    have hplain := h.names entry hentry r hhas hclass
    rw [resourceOf_typeOf hclass hplain]
    obtain ⟨before, holder, after, bytes, hsplit, hbefore, hholds, hfound⟩ :=
      exists_first_holder h.intact h.entries hclass hplain ⟨entry, hentry, hhas⟩
    refine ⟨before, holder, after, bytes, hsplit, hbefore, hholds, ?_⟩
    rw [read, resourceOf_typeOf hclass hplain, hfound]

def mixedFiles : List (List String × Bytes) :=
  [(["a", "B.class"], [1]), (["a", "package-info.class"], [2])]

def mixedMembers : List (String × Bytes) :=
  [("BOOT-INF/classes/c/D.class", [3]), ("a/B.class", [4]), ("c/D.class", [5]),
    ("c/D.class", [6]), ("BOOT-INF/classes/a/E.class", [7])]

/-- A folder in front of an archive that has classes at its top level and in its folder for
classes, one of them three times. -/
def mixedPath : ClassPath :=
  ⟨[⟨"classes", .folder mixedFiles [["b"]]⟩, ⟨"app.jar", .archive mixedMembers⟩]⟩

theorem isRegular_mixedPath : mixedPath.IsRegular where
  intact := by decide +kernel
  entries := by decide +kernel
  names entry hentry r hhas hclass := by
    have hfiles : ∀ f ∈ mixedFiles, IsClassFile (Text.join "/" f.1) →
        IsPlain (Text.join "/" f.1) := by decide +kernel
    have hmembers : ∀ m ∈ mixedMembers, IsClassFile (withoutClassFolder m.1) →
        IsPlain (withoutClassFolder m.1) := by decide +kernel
    simp only [mixedPath, List.mem_cons, List.not_mem_nil, or_false] at hentry
    rcases hentry with rfl | rfl
    · obtain ⟨f, hf, rfl⟩ := hhas
      exact hfiles f hf hclass
    · obtain ⟨m, hm, hname⟩ := hhas
      obtain rfl := (withoutClassFolder_eq_iff m.1 r).mpr hname
      exact hmembers m hm hclass

theorem listing_reading_agree_mixedPath :
    mixedPath.IsRegular ∧ IsPackage "c" ∧ "c.D" ∈ mixedPath.listed "c" ∧
    ∃ before entry after bytes, mixedPath.entries = before ++ entry :: after ∧
      (∀ earlier ∈ before, ∀ bytes', ¬ Holds earlier (resourceOf "c.D") bytes') ∧
      Holds entry (resourceOf "c.D") bytes ∧ mixedPath.read "c.D" = .ok bytes := by
  have hagree := listing_reading_agree isRegular_mixedPath
  have hpackage : IsPackage "c" := .inr (by decide +kernel)
  have hlisted : "c.D" ∈ mixedPath.listed "" := by
    refine (hagree.2.1 "c.D").mpr ⟨_, List.mem_cons_of_mem _ List.mem_cons_self, "c/D.class", ?_⟩
    exact ⟨⟨("c/D.class", [5]), by decide, by decide +kernel⟩, by decide +kernel, by decide +kernel⟩
  refine ⟨isRegular_mixedPath, hpackage, ?_, hagree.2.2 "c.D" hlisted⟩
  rw [(hagree.1 "c" hpackage).2, List.mem_filter]
  exact ⟨hlisted, by decide +kernel⟩

end EndpointAudit.ClassPath
