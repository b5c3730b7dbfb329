import EndpointAudit.ClassFile.Basic
import Mathlib.Data.List.Basic

/-!
# Descriptors are read as they are written

A method descriptor is written from its parameter types and its result, and reading it gives them
back. The scanner also accepts texts that no types are written as, such as a bracket in front of
the closing parenthesis. The grammar of all that it accepts, and of the texts at which it breaks
off, shows that it never loses a character.
-/

namespace EndpointAudit.Descriptor

/-- The letters that stand for the primitive types. -/
def primitiveLetters : List Char := ['B', 'C', 'D', 'F', 'I', 'J', 'S', 'Z']

/-- The type of a field or a parameter. -/
inductive FieldType where
  | primitive (letter : Char) (known : letter ∈ primitiveLetters)
  | classType (name : String) (closed : ';' ∉ name.toList)
  | array (item : FieldType)

/-- How a type is written. -/
def FieldType.text : FieldType → String
  | .primitive letter _ => String.singleton letter
  | .classType name _ => "L" ++ name ++ ";"
  | .array item => "[" ++ item.text

/-- How a method's parameter types and its result are written. -/
def written (types : List String) (result : String) : String :=
  "(" ++ String.join types ++ ")" ++ result

theorem toList_written (types : List String) (result : String) :
    (written types result).toList =
      '(' :: ((types.map String.toList).flatten ++ ')' :: result.toList) := by
  simp [written, List.flatMap_def]

/-! ## One type -/

/-- The texts that are taken for a type: a class type or any other character, with any number of
brackets in front. -/
inductive IsType : List Char → Prop
  | single {c : Char} (bracket : c ≠ '[') (reference : c ≠ 'L') : IsType [c]
  | classType {name : List Char} (closed : ';' ∉ name) : IsType ('L' :: (name ++ [';']))
  | array {type : List Char} (item : IsType type) : IsType ('[' :: type)

/-- The texts within which a type should end and does not. -/
inductive BreaksOff : Fault → List Char → Prop
  | truncated : BreaksOff .truncated []
  | unterminated {name : List Char} (closed : ';' ∉ name) : BreaksOff .unterminated ('L' :: name)
  | array {fault : Fault} {tail : List Char} (item : BreaksOff fault tail) :
      BreaksOff fault ('[' :: tail)

private theorem FieldType.isType (type : FieldType) : IsType type.text.toList := by
  induction type with
  | primitive letter known =>
    have hletter : letter ≠ '[' ∧ letter ≠ 'L' := by
      constructor
      all_goals
        rintro rfl
        exact absurd known (by decide)
    simpa [FieldType.text] using IsType.single hletter.1 hletter.2
  | classType name closed => simpa [FieldType.text] using IsType.classType closed
  | array item ih => simpa [FieldType.text] using IsType.array ih

private theorem throughSemicolon_append {name : List Char} (h : ';' ∉ name) (rest : List Char) :
    throughSemicolon (name ++ ';' :: rest) = some (name ++ [';'], rest) := by
  induction name with
  | nil => rfl
  | cons c name ih =>
    rw [List.mem_cons, not_or] at h
    rw [List.cons_append, throughSemicolon, if_neg (Ne.symm h.1), ih h.2]
    rfl

private theorem throughSemicolon_of_not_mem {cs : List Char} (h : ';' ∉ cs) :
    throughSemicolon cs = none := by
  induction cs with
  | nil => rfl
  | cons c cs ih =>
    rw [List.mem_cons, not_or] at h
    rw [throughSemicolon, if_neg (Ne.symm h.1), ih h.2]
    rfl

private theorem fieldType_append {type : List Char} (h : IsType type) (rest : List Char) :
    fieldType (type ++ rest) = .ok (type, rest) := by
  induction h with
  | single bracket reference =>
    rw [List.singleton_append, fieldType, if_neg bracket, if_neg reference]
  | @classType name closed =>
    rw [List.cons_append, List.append_assoc, List.singleton_append, fieldType,
      if_neg (by decide), if_pos rfl, throughSemicolon_append closed]
  | array item ih =>
    rw [List.cons_append, fieldType, if_pos rfl, ih]
    rfl

private theorem fieldType_of_breaksOff {fault : Fault} {cs : List Char} (h : BreaksOff fault cs) :
    fieldType cs = .error fault := by
  induction h with
  | truncated => rfl
  | unterminated closed =>
    rw [fieldType, if_neg (by decide), if_pos rfl, throughSemicolon_of_not_mem closed]
  | array item ih =>
    rw [fieldType, if_pos rfl, ih]
    rfl

/-- Every text begins with a type or breaks off within one. -/
theorem isType_or_breaksOff (cs : List Char) :
    (∃ type rest, cs = type ++ rest ∧ IsType type) ∨ ∃ fault, BreaksOff fault cs := by
  induction cs with
  | nil => exact .inr ⟨_, .truncated⟩
  | cons c cs ih =>
    by_cases hbracket : c = '['
    · subst hbracket
      rcases ih with ⟨type, rest, rfl, htype⟩ | ⟨fault, hfault⟩
      · exact .inl ⟨'[' :: type, rest, rfl, .array htype⟩
      · exact .inr ⟨fault, .array hfault⟩
    · by_cases hreference : c = 'L'
      · subst hreference
        by_cases hclosed : ';' ∈ cs
        · obtain ⟨name, rest, rfl, hname⟩ := List.eq_append_cons_of_mem hclosed
          exact .inl ⟨'L' :: (name ++ [';']), rest, by simp, .classType hname⟩
        · exact .inr ⟨_, .unterminated hclosed⟩
      · exact .inl ⟨[c], cs, rfl, .single hbracket hreference⟩

/-! ## The parameters -/

/-- The texts that are taken for a parameter. A closing parenthesis ends the list of parameters,
unless a bracket stands before it. -/
def IsParameter (type : List Char) : Prop := IsType type ∧ type ≠ [')']

private theorem FieldType.isParameter (type : FieldType) : IsParameter type.text.toList := by
  refine ⟨type.isType, ?_⟩
  cases type with
  | primitive letter known =>
    intro heq
    have hletter : letter = ')' := by simpa [FieldType.text] using heq
    subst hletter
    exact absurd known (by decide)
  | classType name closed => simp [FieldType.text]
  | array item => simp [FieldType.text]

/-- A type that begins with a closing parenthesis is nothing else. -/
theorem IsType.eq_of_head {tail : List Char} (h : IsType (')' :: tail)) : tail = [] := by
  cases h
  rfl

/-- The first type in front of the closing parenthesis is scanned, then the others. -/
theorem parameters_append {type rest : List Char} (h : IsParameter type) :
    parameters (type ++ rest) =
      (parameters rest).map fun (types, result) => (type :: types, result) := by
  obtain ⟨htype, hne⟩ := h
  have hscan := fieldType_append htype rest
  cases type with
  | nil => cases htype
  | cons c tail =>
    have hc : c ≠ ')' := by
      rintro rfl
      exact hne (by rw [htype.eq_of_head])
    rw [List.cons_append] at hscan ⊢
    rw [parameters, if_neg hc]
    split
    · next heq =>
      rw [hscan] at heq
      cases heq
    · next heq =>
      rw [hscan] at heq
      cases heq
      rfl

private theorem parameters_of_breaksOff {fault : Fault} {cs : List Char} (h : BreaksOff fault cs) :
    parameters cs = .error fault := by
  have hscan := fieldType_of_breaksOff h
  cases cs with
  | nil =>
    cases h
    rw [parameters]
  | cons c tail =>
    have hc : c ≠ ')' := by
      rintro rfl
      cases h
    rw [parameters, if_neg hc]
    split
    · next heq =>
      rw [hscan] at heq
      cases heq
      rfl
    · next heq =>
      rw [hscan] at heq
      cases heq

theorem parameters_flatten {types : List (List Char)} (h : ∀ t ∈ types, IsParameter t)
    (tail : List Char) :
    parameters (types.flatten ++ tail) =
      (parameters tail).map fun (more, result) => (types ++ more, result) := by
  induction types with
  | nil => cases hp : parameters tail <;> simp [hp, Except.map]
  | cons type types ih =>
    rw [List.flatten_cons, List.append_assoc, parameters_append (h type (by simp)),
      ih fun t ht => h t (by simp [ht])]
    cases parameters tail <;> rfl

/-- Every text is a list of parameters up to the closing parenthesis, or up to where it breaks
off. -/
theorem exists_parameters (cs : List Char) :
    ∃ (types : List (List Char)) (tail : List Char), cs = types.flatten ++ tail ∧
      (∀ t ∈ types, IsParameter t) ∧
        ((∃ result, tail = ')' :: result) ∨ ∃ fault, BreaksOff fault tail) := by
  -- A type is never empty, so what follows it is shorter.
  induction hlen : cs.length using Nat.strongRecOn generalizing cs with
  | ind n ih =>
    by_cases hclosed : ∃ result, cs = ')' :: result
    · exact ⟨[], cs, rfl, by simp, .inl hclosed⟩
    · rcases isType_or_breaksOff cs with ⟨type, rest, rfl, htype⟩ | hfault
      · have hne : type ≠ [')'] := by
          rintro rfl
          exact hclosed ⟨rest, rfl⟩
        have hpos : 0 < type.length := by cases htype <;> simp
        rw [List.length_append] at hlen
        obtain ⟨types, tail, rfl, htypes, htail⟩ := ih rest.length (by omega) rest rfl
        refine ⟨type :: types, tail, by simp, ?_, htail⟩
        exact List.forall_mem_cons.mpr ⟨⟨htype, hne⟩, htypes⟩
      · exact ⟨[], cs, rfl, by simp, .inr hfault⟩

private theorem parameters_close (result : List Char) :
    parameters (')' :: result) = .ok ([], result) := by
  rw [parameters, if_pos rfl]

/-! ## Whole descriptors -/

/-- The texts that are refused, and why. -/
inductive Refused : Fault → List Char → Prop
  | notMethod {cs : List Char} (unopened : cs.head? ≠ some '(') : Refused .notMethod cs
  | breaksOff {fault : Fault} {types : List (List Char)} {tail : List Char}
      (parameters : ∀ t ∈ types, IsParameter t) (broken : BreaksOff fault tail) :
      Refused fault ('(' :: (types.flatten ++ tail))

theorem parse_of_opened {descriptor : String} {rest : List Char}
    (h : descriptor.toList = '(' :: rest) :
    parse descriptor = (parameters rest).map fun (types, result) =>
      (types.map String.ofList, String.ofList result) := by
  rw [parse, h]
  rfl

theorem parse_written {types : List String} (h : ∀ t ∈ types, IsParameter t.toList)
    (result : String) : parse (written types result) = .ok (types, result) := by
  have htypes : ∀ t ∈ types.map String.toList, IsParameter t := by simpa using h
  rw [parse_of_opened (toList_written types result), parameters_flatten htypes, parameters_close]
  simp [Except.map]

theorem parse_of_refused {descriptor : String} {fault : Fault}
    (h : Refused fault descriptor.toList) : parse descriptor = .error fault := by
  generalize hcs : descriptor.toList = cs at h
  cases h with
  | notMethod unopened =>
    rw [parse, hcs]
    split
    · exact absurd rfl unopened
    · rfl
  | breaksOff htypes htail =>
    rw [parse_of_opened hcs, parameters_flatten htypes, parameters_of_breaksOff htail]
    rfl

theorem written_or_refused (descriptor : String) :
    (∃ types result, descriptor = written types result ∧ ∀ t ∈ types, IsParameter t.toList) ∨
      ∃ fault, Refused fault descriptor.toList := by
  by_cases hopened : descriptor.toList.head? = some '('
  · obtain ⟨cs, hcs⟩ := List.head?_eq_some_iff.mp hopened
    obtain ⟨types, tail, rfl, htypes, ⟨result, rfl⟩ | ⟨fault, hfault⟩⟩ := exists_parameters cs
    · refine .inl ⟨types.map String.ofList, String.ofList result, ?_, by simpa using htypes⟩
      rw [← String.toList_inj, hcs, toList_written]
      simp
    · rw [hcs]
      exact .inr ⟨fault, .breaksOff htypes hfault⟩
  · exact .inr ⟨_, .notMethod hopened⟩

private theorem parse_eq_ok_iff {descriptor result : String} {types : List String} :
    parse descriptor = .ok (types, result) ↔
      descriptor = written types result ∧ ∀ t ∈ types, IsParameter t.toList := by
  constructor
  · intro h
    rcases written_or_refused descriptor with ⟨types', result', rfl, htypes⟩ | ⟨fault, hfault⟩
    · rw [parse_written htypes] at h
      cases h
      exact ⟨rfl, htypes⟩
    · rw [parse_of_refused hfault] at h
      cases h
  · rintro ⟨rfl, htypes⟩
    exact parse_written htypes result

private theorem parse_eq_error_iff {descriptor : String} {fault : Fault} :
    parse descriptor = .error fault ↔ Refused fault descriptor.toList := by
  refine ⟨fun h => ?_, parse_of_refused⟩
  rcases written_or_refused descriptor with ⟨types, result, rfl, htypes⟩ | ⟨fault', hfault⟩
  · rw [parse_written htypes] at h
    cases h
  · rw [parse_of_refused hfault] at h
    cases h
    exact hfault

/-- Where no parameter holds a closing parenthesis, the first one ends the parameters. -/
theorem resultOf_written {types : List String} (h : ∀ t ∈ types, ')' ∉ t.toList)
    (result : String) : resultOf (written types result) = some result := by
  have hbefore : ∀ c ∈ '(' :: (types.map String.toList).flatten, decide (c ≠ ')') = true := by
    intro c hc
    rw [decide_eq_true_iff]
    rintro rfl
    simp only [List.mem_cons, List.mem_flatten, List.mem_map] at hc
    rcases hc with hparen | ⟨cs, ⟨t, ht, rfl⟩, hmem⟩
    · exact absurd hparen (by decide)
    · exact h t ht hmem
  have hdrop : (written types result).toList.dropWhile (· ≠ ')') = ')' :: result.toList := by
    rw [toList_written, ← List.cons_append, List.dropWhile_append_of_pos hbefore]
    rfl
  rw [resultOf, hdrop]
  simp

/-- **Reading a method descriptor inverts writing it.** Types and any result are read back as they
were written, and the result alone is found behind the first closing parenthesis if no type holds
one. Whatever is read, the descriptor is made of it with nothing lost, and every other text is
refused: it does not begin with a parenthesis, ends within the parameters, or ends within the name
of a class. -/
theorem parse_inverts_written :
    (∀ (types : List FieldType) (result : String),
      parse (written (types.map FieldType.text) result) =
        .ok (types.map FieldType.text, result) ∧
      ∀ m : Method, m.descriptor = written (types.map FieldType.text) result →
        (∀ t ∈ types, ')' ∉ t.text.toList) → m.resultDescriptor? = some result) ∧
    (∀ (descriptor result : String) (types : List String),
      parse descriptor = .ok (types, result) ↔
        descriptor = written types result ∧ ∀ t ∈ types, IsParameter t.toList) ∧
    ∀ (descriptor : String) (fault : Fault),
      parse descriptor = .error fault ↔ Refused fault descriptor.toList := by
  refine ⟨fun types result => ⟨?_, fun m hm hparen => ?_⟩, fun _ _ _ => parse_eq_ok_iff,
    fun _ _ => parse_eq_error_iff⟩
  · refine parse_written (fun t ht => ?_) result
    obtain ⟨type, -, rfl⟩ := List.mem_map.mp ht
    exact type.isParameter
  · rw [Method.resultDescriptor?, hm]
    refine resultOf_written (fun t ht => ?_) result
    obtain ⟨type, htype, rfl⟩ := List.mem_map.mp ht
    exact hparen type htype

/-- An array of arrays of a class, and a number. -/
def nestedTypes : List FieldType :=
  [.array (.array (.classType "com/acme/Foo" (by decide))), .primitive 'J' (by decide)]

theorem parse_inverts_written_nestedTypes :
    (∀ t ∈ nestedTypes, ')' ∉ t.text.toList) ∧
    parse "([[Lcom/acme/Foo;J)V" = .ok (["[[Lcom/acme/Foo;", "J"], "V") ∧
    Method.resultDescriptor? ⟨9, "run", "([[Lcom/acme/Foo;J)V", none, []⟩ = some "V" := by
  have hparen : ∀ t ∈ nestedTypes, ')' ∉ t.text.toList := by decide
  have hwritten : written (nestedTypes.map FieldType.text) "V" = "([[Lcom/acme/Foo;J)V" := by decide
  have htypes : nestedTypes.map FieldType.text = ["[[Lcom/acme/Foo;", "J"] := by decide
  obtain ⟨hread, hresult⟩ := parse_inverts_written.1 nestedTypes "V"
  rw [hwritten, htypes] at hread
  exact ⟨hparen, hread, hresult _ hwritten.symm hparen⟩

/-- A parenthesis in the name of a class is read as part of the name, but ends the search for the
result. -/
example : IsParameter "La)b;".toList ∧ resultOf (written ["La)b;"] "V") = some "b;)V" :=
  ⟨⟨@IsType.classType "a)b".toList (by decide), by decide⟩, by decide⟩

end EndpointAudit.Descriptor
