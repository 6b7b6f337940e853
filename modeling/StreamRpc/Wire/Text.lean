import StreamRpc.Wire.Tag

/-! # Text as bytes

Text goes over the wire as UTF-8.

* `ofUtf8?_utf8`      the bytes of a text read as that text
* `utf8_of_ofUtf8?`   bytes that read as a text are the bytes of that text
-/

namespace StreamRpc.Wire

/-- The UTF-8 bytes of a text. -/
def utf8 (s : String) : Bytes :=
  s.toUTF8.data.toList

/-- The text with these UTF-8 bytes, if they are well formed. -/
def ofUtf8? (bs : Bytes) : Option String :=
  String.fromUTF8? ⟨bs.toArray⟩

/-- Every text is read back from its UTF-8 bytes. -/
@[simp] theorem ofUtf8?_utf8 (s : String) : ofUtf8? (utf8 s) = some s := by
  simp [ofUtf8?, utf8, String.fromUTF8?, String.fromUTF8, s.isValidUTF8]

/-- Accepted bytes are the UTF-8 bytes of the text they are read as. -/
theorem utf8_of_ofUtf8? {bs : Bytes} {s : String} (h : ofUtf8? bs = some s) : utf8 s = bs := by
  simp only [ofUtf8?, String.fromUTF8?, Option.dite_none_right_eq_some, Option.some.injEq] at h
  obtain ⟨_, rfl⟩ := h
  simp [utf8, String.fromUTF8]

/-- Different texts have different UTF-8 bytes. -/
theorem utf8_injective {s t : String} (h : utf8 s = utf8 t) : s = t := by
  simpa using congrArg ofUtf8? h

end StreamRpc.Wire
