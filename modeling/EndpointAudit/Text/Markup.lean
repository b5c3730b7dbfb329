/-!
# Console markup

Console text may hold style tags in square brackets. Text that is to be shown literally has a
backslash put in front of everything that would be read as a tag. A console without styles shows a
text with its tags left out.
-/

namespace EndpointAudit.Text

def beginsTag (c : Char) : Bool :=
  (0x61 ≤ c.toNat && c.toNat ≤ 0x7A) || c == '#' || c == '/' || c == '@'

/-- The rest of a tag up to its closing bracket, which no opening bracket may precede, and what
follows the tag. -/
def tagRest : List Char → Option (List Char × List Char)
  | [] => none
  | c :: cs =>
    if c = ']' then some ([']'], cs)
    else if c = '[' then none
    else (tagRest cs).map fun (tag, rest) => (c :: tag, rest)

/-- The tag a text begins with, and what follows it. -/
def leadingTag : List Char → Option (List Char × List Char)
  | '[' :: c :: cs =>
    if beginsTag c then (tagRest cs).map fun (tag, rest) => ('[' :: c :: tag, rest) else none
  | _ => none

theorem tagRest_length {cs tag rest : List Char} (h : tagRest cs = some (tag, rest)) :
    rest.length < cs.length := by
  induction cs generalizing tag with
  | nil => simp [tagRest] at h
  | cons c cs ih =>
    rw [tagRest] at h
    split at h
    · simp_all
    · split at h
      · simp at h
      · obtain ⟨⟨t, r⟩, ht, heq⟩ := Option.map_eq_some_iff.1 h
        simp only [Prod.mk.injEq] at heq
        obtain ⟨_, rfl⟩ := heq
        have := ih ht
        simp; omega

theorem leadingTag_length {cs tag rest : List Char} (h : leadingTag cs = some (tag, rest)) :
    rest.length < cs.length := by
  unfold leadingTag at h
  split at h
  · split at h
    · obtain ⟨⟨t, r⟩, ht, heq⟩ := Option.map_eq_some_iff.1 h
      simp only [Prod.mk.injEq] at heq
      obtain ⟨_, rfl⟩ := heq
      have := tagRest_length ht
      simp; omega
    · simp at h
  · simp at h

/-- Escapes tags. `slashes` backslashes have been read just before the text and not been written;
in front of a tag they are doubled and one more is added. -/
def escapeTags (slashes : Nat) : List Char → List Char
  | [] => List.replicate slashes '\\'
  | c :: rest =>
    if c = '\\' then escapeTags (slashes + 1) rest
    else match _ht : leadingTag (c :: rest) with
      | some (tag, after) =>
        List.replicate (2 * slashes + 1) '\\' ++ tag ++ escapeTags 0 after
      | none => List.replicate slashes '\\' ++ c :: escapeTags 0 rest
termination_by cs => cs.length
decreasing_by
  · simp
  · exact leadingTag_length (by assumption)
  · simp

/-- Leaves out tags. `slashes` backslashes have been read just before the text and not been written;
in front of a tag they are halved, and one that remains makes the tag literal. -/
def dropTags (slashes : Nat) : List Char → List Char
  | [] => List.replicate slashes '\\'
  | c :: rest =>
    if c = '\\' then dropTags (slashes + 1) rest
    else match _ht : leadingTag (c :: rest) with
      | some (tag, after) =>
        List.replicate (slashes / 2) '\\' ++ (if slashes % 2 = 1 then tag else []) ++
          dropTags 0 after
      | none => List.replicate slashes '\\' ++ c :: dropTags 0 rest
termination_by cs => cs.length
decreasing_by
  · simp
  · exact leadingTag_length (by assumption)
  · simp

/-- What a console without styles shows of a text. -/
def plain (markup : String) : String := String.ofList (dropTags 0 markup.toList)

def endsInLoneBackslash (cs : List Char) : Bool :=
  match cs.reverse with
  | '\\' :: '\\' :: _ => false
  | '\\' :: _ => true
  | _ => false

/-- Text that the console shows literally. A lone backslash at the end is doubled, so that it
cannot escape a tag that is put behind it. -/
def escape (text : String) : String :=
  let escaped := escapeTags 0 text.toList
  String.ofList (if endsInLoneBackslash escaped then escaped ++ ['\\'] else escaped)

end EndpointAudit.Text
