import Stencil.Text.Basic

/-! # UTF-8

The bytes of a text. Main statement: `ofUtf8?_utf8`, by which every text can be read back. -/

namespace Stencil.Text

def utf8 (s : Text) : List UInt8 := s.flatMap String.utf8EncodeChar

/-- The text of bytes that are well-formed UTF-8. -/
def ofUtf8? (bytes : List UInt8) : Option Text := bytes.toByteArray.utf8Decode?.map Array.toList

@[simp] theorem ofUtf8?_utf8 (s : Text) : ofUtf8? (utf8 s) = some s := by
  have h : (utf8 s).toByteArray.utf8Decode? = some s.toArray := List.utf8Decode?_utf8Encode
  simp [ofUtf8?, h]

theorem utf8_append (s t : Text) : utf8 (s ++ t) = utf8 s ++ utf8 t := by
  simp [utf8, List.flatMap_append]

end Stencil.Text
