-- SUMMARY: Reading whole numbers: sign, digits of any script, single underscores between digits.
import Conch.Text.Blank
import Conch.Text.Digit

/-!
# Whole numbers as text

A numeral is an optional sign and then decimal digits of any script, with single
underscores allowed between two digits, and with padding allowed at both ends.
At most `maxDigits` digits are read, leading zeros included.
-/

namespace Conch

/-- Characters that may pad a numeral: the blanks other than the information separators. -/
def isPadding (c : Char) : Bool :=
  isBlank c && !(0x1C ≤ c.toNat && c.toNat ≤ 0x1F)

/-- The largest number of digits a numeral may have. -/
def maxDigits : Nat := 4300

/-- The digits that follow a digit: more digits, each after at most one underscore. -/
def moreDigits : List Char → Option (List Nat)
  | [] => some []
  | '_' :: c :: rest =>
    match digitValue? c with
    | some d => (moreDigits rest).map (d :: ·)
    | none => none
  | c :: rest =>
    match digitValue? c with
    | some d => (moreDigits rest).map (d :: ·)
    | none => none

/-- The digits of an unsigned numeral: a digit first, then more. -/
def digits? : List Char → Option (List Nat)
  | [] => none
  | c :: rest =>
    match digitValue? c with
    | some d => (moreDigits rest).map (d :: ·)
    | none => none

/-- The number that a list of decimal digits writes, the leading digit first. -/
def ofDigits (ds : List Nat) : Nat :=
  ds.foldl (fun n d => 10 * n + d) 0

/-- The number that an unsigned numeral of at most `maxDigits` digits writes. -/
def natural? (cs : List Char) : Option Nat :=
  match digits? cs with
  | some ds => if ds.length ≤ maxDigits then some (ofDigits ds) else none
  | none => none

/-- The number that a numeral with an optional sign writes. -/
def signed? : List Char → Option Int
  | '-' :: rest => (natural? rest).map fun n => -(n : Int)
  | '+' :: rest => (natural? rest).map Int.ofNat
  | rest => (natural? rest).map Int.ofNat

/-- A list of characters without the padding at its two ends. -/
def trimPadding (cs : List Char) : List Char :=
  ((cs.dropWhile isPadding).reverse.dropWhile isPadding).reverse

/-- The whole number that a text writes, if it is a numeral. -/
def integer? (text : String) : Option Int :=
  signed? (trimPadding text.toList)

end Conch
