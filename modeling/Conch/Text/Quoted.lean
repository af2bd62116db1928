-- SUMMARY: Quoted texts: one line of printable characters that determines the text.
import Conch.Text.Printable

/-!
# Quoted texts

A quoted text stands between two equal quote marks, with the marks inside it,
backslashes and unprintable characters written as escapes. So it never spans
lines and never ends early, whatever the text holds.

The mark is the single quote, unless the text has single quotes and no double
ones. A list of quoted texts stands in square brackets.
-/

namespace Conch

/-- The lowercase hexadecimal digits of a number, padded with zeros to a width. -/
def hexDigits (width n : Nat) : List Char :=
  let digits := Nat.toDigits 16 n
  List.replicate (width - digits.length) '0' ++ digits

/-- How one character stands inside a quoted text with the given quote mark. -/
def quoteChar (mark c : Char) : List Char :=
  if c == mark || c == '\\' then ['\\', c]
  else if c == '\t' then ['\\', 't']
  else if c == '\n' then ['\\', 'n']
  else if c == '\r' then ['\\', 'r']
  else if isPrintable c then [c]
  else if c.toNat < 0x100 then ['\\', 'x'] ++ hexDigits 2 c.toNat
  else if c.toNat < 0x10000 then ['\\', 'u'] ++ hexDigits 4 c.toNat
  else ['\\', 'U'] ++ hexDigits 8 c.toNat

/-- The quote mark for a text: single, unless only single ones occur inside. -/
def quoteMark (text : List Char) : Char :=
  if text.contains '\'' && !text.contains '"' then '"' else '\''

/-- The characters of a quoted text. -/
def quoteChars (text : List Char) : List Char :=
  let mark := quoteMark text
  mark :: (text.flatMap (quoteChar mark) ++ [mark])

/-- A text between quote marks, on one line. -/
def quoted (text : String) : String :=
  String.ofList (quoteChars text.toList)

/-- A list of quoted texts in square brackets. -/
def quotedList (texts : List String) : String :=
  "[" ++ ", ".intercalate (texts.map quoted) ++ "]"

end Conch
