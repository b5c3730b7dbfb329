import EndpointAudit.Bytes.Basic

/-!
# Texts as bytes

The bytes of a text in UTF-8. A byte string is read as a text exactly if it is the bytes of one.
-/

namespace EndpointAudit.Bytes

/-- The bytes of a text in UTF-8. -/
def ofText (text : String) : Bytes := text.toList.flatMap String.utf8EncodeChar

private theorem toByteArray_ofText (text : String) :
    (ofText text).toByteArray = text.toByteArray :=
  String.utf8Encode_toList

private theorem mk_toArray (bytes : Bytes) : (⟨bytes.toArray⟩ : ByteArray) = bytes.toByteArray := by
  apply ByteArray.ext
  rw [List.data_toByteArray]

theorem text?_eq_some_iff {bytes : Bytes} {text : String} :
    text? bytes = some text ↔ bytes = ofText text := by
  rw [text?, mk_toArray, String.fromUTF8?]
  constructor
  · intro h
    split at h
    · next hvalid =>
      rw [Option.some.injEq] at h
      subst h
      apply List.toByteArray_inj.mp
      rw [toByteArray_ofText]
      rfl
    · contradiction
  · rintro rfl
    have hvalid : (ofText text).toByteArray.IsValidUTF8 := by
      rw [toByteArray_ofText]
      exact text.isValidUTF8
    rw [dif_pos hvalid, Option.some.injEq, ← String.toByteArray_inj]
    exact toByteArray_ofText text

theorem text?_ofText (text : String) : text? (ofText text) = some text :=
  text?_eq_some_iff.mpr rfl

theorem text?_eq_none_iff {bytes : Bytes} :
    text? bytes = none ↔ ∀ text, bytes ≠ ofText text := by
  simp only [Option.eq_none_iff_forall_not_mem, Option.mem_def, text?_eq_some_iff, ne_eq]

end EndpointAudit.Bytes
