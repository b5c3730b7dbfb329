import EndpointAudit.Naming

/-!
# Descriptors

A method descriptor is a list of parameter types between parentheses, followed by the type of the
result. A class type is a name between `L` and a semicolon, an array type has an opening bracket
in front, and every other type is one letter.
-/

namespace EndpointAudit.Descriptor

inductive Fault where
  /-- There is no opening parenthesis in front. -/
  | notMethod
  /-- A class type lacks its semicolon. -/
  | unterminated
  /-- The text ends before the closing parenthesis. -/
  | truncated
deriving DecidableEq, Repr

/-- The characters up to and including the first semicolon, and what follows. -/
def throughSemicolon : List Char → Option (List Char × List Char)
  | [] => none
  | c :: cs =>
    if c = ';' then some ([c], cs)
    else (throughSemicolon cs).map fun (name, rest) => (c :: name, rest)

/-- The type in front of a text, and what follows it. -/
def fieldType : List Char → Except Fault (List Char × List Char)
  | [] => .error .truncated
  | c :: cs =>
    if c = '[' then (fieldType cs).map fun (type, rest) => (c :: type, rest)
    else if c = 'L' then
      match throughSemicolon cs with
      | some (name, rest) => .ok (c :: name, rest)
      | none => .error .unterminated
    else .ok ([c], cs)

theorem throughSemicolon_eq {cs name rest : List Char}
    (h : throughSemicolon cs = some (name, rest)) : cs = name ++ rest ∧ name ≠ [] := by
  induction cs generalizing name with
  | nil => simp [throughSemicolon] at h
  | cons c cs ih =>
    rw [throughSemicolon] at h
    split at h
    · simp only [Option.some.injEq, Prod.mk.injEq] at h
      simp [← h.1, ← h.2]
    · obtain ⟨⟨n, r⟩, hn, heq⟩ := Option.map_eq_some_iff.1 h
      simp only [Prod.mk.injEq] at heq
      obtain ⟨rfl, rfl⟩ := heq
      simp [(ih hn).1]

theorem fieldType_eq {cs type rest : List Char} (h : fieldType cs = .ok (type, rest)) :
    cs = type ++ rest ∧ type ≠ [] := by
  induction cs generalizing type with
  | nil => simp [fieldType] at h
  | cons c cs ih =>
    rw [fieldType] at h
    split at h
    · cases hf : fieldType cs with
      | error e => simp [hf, Except.map] at h
      | ok p =>
        obtain ⟨t, r⟩ := p
        simp only [hf, Except.map, Except.ok.injEq, Prod.mk.injEq] at h
        obtain ⟨rfl, rfl⟩ := h
        simp [(ih hf).1]
    · split at h
      · split at h
        · next hn =>
          simp only [Except.ok.injEq, Prod.mk.injEq] at h
          obtain ⟨rfl, rfl⟩ := h
          simp [(throughSemicolon_eq hn).1]
        · simp at h
      · simp only [Except.ok.injEq, Prod.mk.injEq] at h
        obtain ⟨rfl, rfl⟩ := h
        simp

/-- The parameter types up to the closing parenthesis, and what follows it. -/
def parameters (cs : List Char) : Except Fault (List (List Char) × List Char) :=
  match cs with
  | [] => .error .truncated
  | c :: rest =>
    if c = ')' then .ok ([], rest)
    else match _h : fieldType (c :: rest) with
      | .error fault => .error fault
      | .ok (type, after) => (parameters after).map fun (types, result) => (type :: types, result)
termination_by cs.length
decreasing_by
  obtain ⟨heq, hne⟩ := fieldType_eq (by assumption)
  rw [heq, List.length_append]
  have := List.length_pos_iff.2 hne
  omega

def parse (descriptor : String) : Except Fault (List String × String) :=
  match descriptor.toList with
  | '(' :: rest =>
    (parameters rest).map fun (types, result) => (types.map String.ofList, String.ofList result)
  | _ => .error .notMethod

/-- What follows the first closing parenthesis. -/
def resultOf (descriptor : String) : Option String :=
  match descriptor.toList.dropWhile (· ≠ ')') with
  | [] => none
  | _ :: result => some (String.ofList result)

/-- A text without its first and its last character. -/
def inner (text : String) : String :=
  String.ofList (text.toList.drop 1).dropLast

def isClassType (text : String) : Bool :=
  Text.startsWith text "L" && Text.endsWith text ";"

/-- The dotted name of a class type; every other type stays as it is. -/
def typeName (descriptor : String) : String :=
  if isClassType descriptor then Naming.dotted (inner descriptor) else descriptor

end EndpointAudit.Descriptor
