/-!
# Byte strings

Templates, compiled entries, paths and environment values are byte strings in no promised
encoding.  Only a text that a person typed or reads is a `String`.  `Bytes.ofString` is its UTF-8
form, and `Bytes.ofAscii` the shorter way for characters that are known to be ASCII.
-/

namespace Terminal

/-- A sequence of bytes in no particular encoding. -/
abbrev Bytes := List UInt8

namespace Bytes

/-- The UTF-8 form of a text. -/
def ofString (s : String) : Bytes := s.toList.flatMap String.utf8EncodeChar

/-- The bytes of ASCII characters, one each. -/
def ofAscii (cs : List Char) : Bytes := cs.map Char.toUInt8

@[simp] theorem ofString_empty : ofString "" = [] := by simp [ofString]

/-- One byte stands for each character. -/
@[simp] theorem length_ofAscii (cs : List Char) : (ofAscii cs).length = cs.length := by
  simp [ofAscii]

@[simp] theorem ofAscii_append (cs ds : List Char) : ofAscii (cs ++ ds) = ofAscii cs ++ ofAscii ds := by
  simp [ofAscii]

end Bytes

end Terminal
