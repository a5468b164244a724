set_option autoImplicit false

/-! # Bytes

A text on the wire is a list of bytes. A string is written as its UTF-8 bytes, and a list of
bytes reads back as a string exactly when it is well-formed UTF-8. -/

namespace Registrar

abbrev Bytes := List UInt8

namespace Bytes

/-- The UTF-8 bytes of a string. -/
def ofString (s : String) : Bytes := s.toByteArray.data.toList

/-- The string whose UTF-8 bytes these are. -/
def text? (bs : Bytes) : Option String := String.fromUTF8? ⟨bs.toArray⟩

/-- The bytes of an ASCII text. -/
def ascii (s : String) : Bytes := s.toList.map fun c => UInt8.ofNat c.toNat

@[simp] theorem text?_ofString (s : String) : text? (ofString s) = some s := by
  have h : (⟨(ofString s).toArray⟩ : ByteArray) = s.toByteArray := by simp [ofString]
  simp only [text?, h, String.fromUTF8?, dif_pos s.isValidUTF8]
  rfl

end Bytes

end Registrar
