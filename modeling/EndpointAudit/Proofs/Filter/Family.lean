import EndpointAudit.Filter.Coverage
import EndpointAudit.Proofs.Naming

/-!
# Families of filters

The family of a filter is read off the last segment of its dotted name, squashed to small letters
and digits. Packages therefore never count. In a nested class the last segment also holds the names
of the enclosing classes, and a word that begins in one of them takes the filter to another family
than its simple name alone.
-/

namespace EndpointAudit

namespace Naming

/-- What stands in front of the simple name in the last segment of a dotted name: the enclosing
classes. -/
def enclosing (typeName : String) : String :=
  Text.dropLast (simpleName typeName).toList.length (Text.afterLast '.' typeName)

/-- A word can be read in the squashed last segment of a type name from a place in front of the
simple name. -/
def BeginsEnclosing (typeName word : String) : Prop :=
  ∃ before after : List Char, before.length < (squash (enclosing typeName)).toList.length ∧
    (squash (Text.afterLast '.' typeName)).toList = before ++ word.toList ++ after

private theorem toList_afterLast_eq (typeName : String) : (Text.afterLast '.' typeName).toList =
    (enclosing typeName).toList ++ (simpleName typeName).toList := by
  rw [enclosing, Text.dropLast, String.toList_ofList]
  exact (List.suffix_iff_eq_append.mp (simpleName_suffix typeName)).symm

private theorem toList_squash_afterLast (typeName : String) :
    (squash (Text.afterLast '.' typeName)).toList =
      (squash (enclosing typeName)).toList ++ (squash (simpleName typeName)).toList := by
  simp only [toList_squash, toList_afterLast_eq, List.flatMap_append]

theorem afterLast_simpleName (typeName : String) :
    Text.afterLast '.' (simpleName typeName) = simpleName typeName := by
  apply Text.afterLast_of_not_mem
  intro hdot
  exact Text.not_mem_afterLast '.' typeName ((simpleName_suffix typeName).subset hdot)

private theorem simpleName_of_plain {typeName : String} (hslash : '/' ∉ typeName.toList)
    (hdollar : '$' ∉ (Text.afterLast '.' typeName).toList) :
    simpleName typeName = Text.afterLast '.' typeName := by
  have hdotted : dotted typeName = typeName := by
    have hkept : ∀ c ∈ typeName.toList, (if c = '/' then '.' else c) = c := by
      intro c hc
      apply if_neg
      rintro rfl
      exact hslash hc
    rw [dotted, Text.replaceChar, List.map_congr_left hkept, List.map_id', String.ofList_toList]
  rw [simpleName, hdotted, Text.afterLast_of_not_mem hdollar]

/-- A block of a joined list lies in the second part or begins in the first. -/
theorem infix_append_iff (word front back : List Char) : word <:+: front ++ back ↔
    word <:+: back ∨
      ∃ before after, before.length < front.length ∧ front ++ back = before ++ word ++ after := by
  constructor
  · rintro ⟨before, after, heq⟩
    by_cases hlt : before.length < front.length
    · exact .inr ⟨before, after, hlt, heq.symm⟩
    · left
      have hfront : front <+: before := by
        have hbefore : before <+: front ++ back := by
          rw [← heq, List.append_assoc]
          exact List.prefix_append before _
        exact List.prefix_of_prefix_length_le (List.prefix_append front back) hbefore
          (Nat.le_of_not_lt hlt)
      obtain ⟨rest, rfl⟩ := hfront
      refine ⟨rest, after, ?_⟩
      rw [List.append_assoc, List.append_assoc, List.append_cancel_left_eq] at heq
      rw [List.append_assoc]
      exact heq
  · rintro (hback | ⟨before, after, -, heq⟩)
    · exact hback.trans (List.suffix_append front back).isInfix
    · exact ⟨before, after, heq.symm⟩

end Naming

namespace Filter

/-- The words that speak for a family. -/
def Family.words : Family → List String
  | .apiKey => ["apikey", "tokenauth"]
  | .jwt => ["jwt"]
  | .basic => ["basicauth"]
  | .custom => []

/-- The place of a family in the order in which families are looked for. -/
def Family.rank : Family → Nat
  | .apiKey => 0
  | .jwt => 1
  | .basic => 2
  | .custom => 3

/-- One of the words for a family occurs in a text. -/
def Family.NamedIn (family : Family) (text : String) : Prop :=
  ∃ word ∈ family.words, Text.contains text word = true

open Naming

/-- The family of a filter is the first one with a word in the last segment of its name. -/
theorem familyOf_eq_iff (filterType : String) (family : Family) : familyOf filterType = family ↔
    (family = .custom ∨ family.NamedIn (squash (Text.afterLast '.' filterType))) ∧
    ∀ other : Family, other.rank < family.rank →
      ¬ other.NamedIn (squash (Text.afterLast '.' filterType)) := by
  unfold familyOf
  generalize squash (Text.afterLast '.' filterType) = words
  have hkey : Family.apiKey.NamedIn words ↔
      (Text.contains words "apikey" || Text.contains words "tokenauth") = true := by
    simp [Family.NamedIn, Family.words]
  have hjwt : Family.jwt.NamedIn words ↔ Text.contains words "jwt" = true := by
    simp [Family.NamedIn, Family.words]
  have hbasic : Family.basic.NamedIn words ↔ Text.contains words "basicauth" = true := by
    simp [Family.NamedIn, Family.words]
  have hbefore : (∀ other : Family, other.rank < family.rank → ¬ other.NamedIn words) ↔
      (0 < family.rank → ¬ Family.apiKey.NamedIn words) ∧
      (1 < family.rank → ¬ Family.jwt.NamedIn words) ∧
      (2 < family.rank → ¬ Family.basic.NamedIn words) := by
    constructor
    · intro h
      exact ⟨h .apiKey, h .jwt, h .basic⟩
    · rintro ⟨hkey, hjwt, hbasic⟩ other hlt
      cases other with
      | apiKey => exact hkey hlt
      | jwt => exact hjwt hlt
      | basic => exact hbasic hlt
      | custom => simp [Family.NamedIn, Family.words]
  rw [hbefore, hkey, hjwt, hbasic]
  dsimp only
  split
  · cases family <;> simp_all [Family.rank]
  · split
    · cases family <;> simp_all [Family.rank]
    · split <;> cases family <;> simp_all [Family.rank]

theorem namedIn_afterLast_iff (filterType : String) (family : Family) :
    family.NamedIn (squash (Text.afterLast '.' filterType)) ↔
      family.NamedIn (squash (simpleName filterType)) ∨
      ∃ word ∈ family.words, BeginsEnclosing filterType word := by
  have hword : ∀ word, Text.contains (squash (Text.afterLast '.' filterType)) word = true ↔
      Text.contains (squash (simpleName filterType)) word = true ∨
        BeginsEnclosing filterType word := by
    intro word
    rw [Text.contains_iff, Text.contains_iff, BeginsEnclosing, toList_squash_afterLast]
    exact infix_append_iff _ _ _
  simp only [Family.NamedIn, hword, and_or_left, exists_or]

private theorem familyOf_eq_simpleName_iff (filterType : String) :
    familyOf filterType = familyOf (simpleName filterType) ↔
      ∀ family : Family, family.rank < (familyOf (simpleName filterType)).rank →
        ∀ word ∈ family.words, ¬ BeginsEnclosing filterType word := by
  have hsimple := (familyOf_eq_iff (simpleName filterType) _).mp rfl
  rw [afterLast_simpleName] at hsimple
  obtain ⟨hnamed, hbefore⟩ := hsimple
  rw [familyOf_eq_iff]
  constructor
  · rintro ⟨-, hnone⟩ family hlt word hword hbegins
    apply hnone family hlt
    exact (namedIn_afterLast_iff filterType family).mpr (.inr ⟨word, hword, hbegins⟩)
  · intro hnone
    refine ⟨hnamed.imp_right fun h => (namedIn_afterLast_iff filterType _).mpr (.inl h), ?_⟩
    intro family hlt hsegment
    rcases (namedIn_afterLast_iff filterType family).mp hsegment with h | ⟨word, hword, hbegins⟩
    · exact hbefore family hlt h
    · exact hnone family hlt word hword hbegins

/-- **What a filter's family is read off.** A package never counts, and a class that is not nested
has the family of its simple name. A nested class has another family exactly if a word for a family
that is looked for earlier begins in the name of an enclosing class. -/
theorem familyOf_outcome (filterType : String) :
    (∀ package, familyOf (package ++ "." ++ filterType) = familyOf filterType) ∧
    ('/' ∉ filterType.toList → '$' ∉ (Text.afterLast '.' filterType).toList →
      familyOf filterType = familyOf (simpleName filterType)) ∧
    (familyOf filterType ≠ familyOf (simpleName filterType) ↔
      ∃ family : Family, family.rank < (familyOf (simpleName filterType)).rank ∧
        ∃ word ∈ family.words, BeginsEnclosing filterType word) := by
  refine ⟨?_, ?_, ?_⟩
  · intro package
    rw [familyOf, familyOf, Text.afterLast_append (by decide)]
  · intro hslash hdollar
    have hsegment := afterLast_simpleName filterType
    rw [simpleName_of_plain hslash hdollar] at hsegment ⊢
    rw [familyOf, familyOf, hsegment]
  · rw [Ne, familyOf_eq_simpleName_iff]
    simp only [not_forall, not_not, exists_prop]

theorem familyOf_outcome_plainFilter :
    '/' ∉ "com.apikey.TenantFilter".toList ∧
    '$' ∉ (Text.afterLast '.' "com.apikey.TenantFilter").toList ∧
    familyOf "com.apikey.TenantFilter" = familyOf (simpleName "com.apikey.TenantFilter") := by
  have hslash : '/' ∉ "com.apikey.TenantFilter".toList := by decide
  have hdollar : '$' ∉ (Text.afterLast '.' "com.apikey.TenantFilter").toList := by decide
  exact ⟨hslash, hdollar, (familyOf_outcome _).2.1 hslash hdollar⟩

/-- The name of an enclosing class makes an API-key filter of a filter whose own name says nothing
of the kind. -/
theorem familyOf_enclosedFilter :
    simpleName "com.acme.ApiKeyConfig$TenantFilter" = "TenantFilter" ∧
    familyOf "com.acme.ApiKeyConfig$TenantFilter" = .apiKey ∧
    familyOf (simpleName "com.acme.ApiKeyConfig$TenantFilter") = .custom := by
  decide +kernel

end Filter

end EndpointAudit
