-- SUMMARY: Byte sequences, the contents of files and streams, and texts as UTF-8.

/-!
# Bytes

Files, pipes and the console carry bytes. Diagnostics and the output of `echo`
are texts, written as UTF-8.

A text is a sequence of Unicode scalar values. UTF-8 can encode each of them, so
every text can be written, and read back from what was written. What UTF-8 cannot
encode, such as a lone surrogate, is in no text.
-/

namespace Conch

/-- The contents of a file, or what passes through a stream. -/
abbrev Bytes := List UInt8

/-- The UTF-8 encoding of a text. -/
def utf8 (text : String) : Bytes :=
  text.toList.flatMap String.utf8EncodeChar

/-- The UTF-8 encoding of a text and a line end. -/
def utf8Line (text : String) : Bytes :=
  utf8 text ++ [10]

/-- The text that some bytes encode, if they are valid UTF-8. -/
def text? (bytes : Bytes) : Option String :=
  String.fromUTF8? bytes.toByteArray

/-- The number of bytes that a text takes in UTF-8. -/
def byteSize (text : String) : Nat :=
  text.utf8ByteSize

/-- Whether a text holds the NUL character, which no path or argument may. -/
def hasNul (text : String) : Bool :=
  text.toList.contains '\x00'

/-- Every text can be read back from its encoding. -/
theorem text?_utf8 (text : String) : text? (utf8 text) = some text := by
  have hbytes : (utf8 text).toByteArray = text.toByteArray := String.utf8Encode_toList
  rw [text?, hbytes, String.fromUTF8?, dif_pos text.isValidUTF8]
  rfl

theorem text?_utf8Line (text : String) : text? (utf8Line text) = some (text ++ "\n") := by
  have hline : utf8Line text = utf8 (text ++ "\n") := by
    simp [utf8Line, utf8, String.utf8EncodeChar]
  rw [hline, text?_utf8]

end Conch
