-- SUMMARY: Blank characters, the ones that part words and are trimmed from the ends of a line.

/-!
# Blank characters

A blank parts two words when no quote protects it, and blanks at the ends of a
line carry no meaning. The class is Unicode's white space together with the four
information separators U+001C to U+001F.
-/

namespace Conch

/-- The blanks, as ascending inclusive ranges of code points. -/
def blankRanges : List (Nat × Nat) :=
  [(0x09, 0x0D), (0x1C, 0x20), (0x85, 0x85), (0xA0, 0xA0), (0x1680, 0x1680),
   (0x2000, 0x200A), (0x2028, 0x2029), (0x202F, 0x202F), (0x205F, 0x205F), (0x3000, 0x3000)]

/-- Whether a code point lies in one of the given ascending ranges. -/
def inRanges (n : Nat) : List (Nat × Nat) → Bool
  | [] => false
  | (lo, hi) :: rest => if n < lo then false else n ≤ hi || inRanges n rest

/-- A blank: a character that parts words and is trimmed from the ends of a line. -/
def isBlank (c : Char) : Bool :=
  inRanges c.toNat blankRanges

/-- A list of characters without the blanks at its two ends. -/
def trimBlanks (cs : List Char) : List Char :=
  ((cs.dropWhile isBlank).reverse.dropWhile isBlank).reverse

/-- A line without the blanks at its two ends. -/
def trim (line : String) : String :=
  String.ofList (trimBlanks line.toList)

end Conch
