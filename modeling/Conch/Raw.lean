-- SUMMARY: Raw texts, in which every character stands for one byte.
import Conch.Bytes

/-!
# Raw texts

Programs take their arguments and variables as bytes and attach no meaning to
those beyond the first 128. A raw text is such a sequence of bytes, held as a
string in which every character stands for one byte, so that it can be compared
with texts of the basic alphabet directly.
-/

namespace Conch

/-- A text of bytes: every character is one of the first 256. -/
abbrev Raw := String

namespace Raw

/-- The raw text of some bytes. -/
def ofBytes (data : Bytes) : Raw :=
  String.ofList (data.map fun b => Char.ofNat b.toNat)

/-- The bytes of a raw text. -/
def bytes (r : Raw) : Bytes :=
  r.toList.map fun c => c.toNat.toUInt8

/-- A text as the bytes of its encoding. -/
def encode (text : String) : Raw :=
  ofBytes (utf8 text)

/-- The text that a raw text encodes; as it is if it encodes none. -/
def decode (r : Raw) : String :=
  (text? (bytes r)).getD r

/-- The raw text without its last line end. -/
def dropLineEnd (r : Raw) : Raw :=
  match r.toList.reverse with
  | '\n' :: cs => String.ofList cs.reverse
  | _ => r

end Raw

end Conch
