-- SUMMARY: Conversions: how numbers and texts are written into a field of a format.
import Conch.Program.Binary

/-!
# Conversions

A conversion says how an argument is written: by a letter, with marks, a width to
be filled up and a precision.
-/

namespace Conch

/-- How an argument is written. -/
structure Conversion where
  left : Bool := false
  zero : Bool := false
  plus : Bool := false
  space : Bool := false
  alternate : Bool := false
  width : Nat := 0
  precision : Option Nat := none
  letter : Char
  deriving DecidableEq, Repr

namespace Conversion

/-- Take a mark before the width. -/
def mark (c : Conversion) (m : Char) : Conversion :=
  match m with
  | '-' => { c with left := true }
  | '0' => { c with zero := true }
  | '+' => { c with plus := true }
  | ' ' => { c with space := true }
  | '#' => { c with alternate := true }
  | _ => c

/-- Set the width; one below zero puts the text to the left. -/
def sized (c : Conversion) (width : Int) : Conversion :=
  { c with width := width.natAbs, left := c.left || decide (width < 0) }

/-- Fill a text up to the width. -/
def fill (c : Conversion) (text : List Char) : List Char :=
  let gap := List.replicate (c.width - text.length) ' '
  if c.left then text ++ gap else gap ++ text

/-- Write a text, cut to the precision. -/
def text (c : Conversion) (t : Raw) : List Char :=
  c.fill (match c.precision with
    | some n => t.toList.take n
    | none => t.toList)

/-- Fill a number up to the width, with zeros between its sign and its digits if asked. -/
def fillNumber (c : Conversion) (zeros : Bool) (sign digits : List Char) : List Char :=
  let gap := if zeros && c.zero && !c.left then c.width - (sign.length + digits.length) else 0
  c.fill (sign ++ List.replicate gap '0' ++ digits)

/-- The sign of a number. -/
def sign (c : Conversion) (negative : Bool) : List Char :=
  if negative then ['-'] else if c.plus then ['+'] else if c.space then [' '] else []

/-- Capital letters where the conversion's letter is one. -/
def cased (c : Conversion) (cs : List Char) : List Char :=
  if c.letter.isUpper then cs.map Char.toUpper else cs

/-- Sixty-four bits without a sign. -/
def unsigned (n : Int) : Nat := (n % 18446744073709551616).toNat

/-- Write a whole number. -/
def integer (c : Conversion) (n : Int) : List Char :=
  let upTo := fun (digits : List Char) =>
    let digits := if digits = ['0'] && c.precision = some 0 then [] else digits
    List.replicate ((c.precision.getD 1) - digits.length) '0' ++ digits
  let zeros := c.precision.isNone
  match c.letter with
  | 'o' =>
    let digits := upTo (Nat.toDigits 8 (unsigned n))
    c.fillNumber zeros [] (if c.alternate && digits.head? ≠ some '0' then '0' :: digits else digits)
  | 'x' | 'X' =>
    c.fillNumber zeros (c.cased (if c.alternate && n ≠ 0 then ['0', 'x'] else []))
      (c.cased (upTo (Nat.toDigits 16 (unsigned n))))
  | 'u' => c.fillNumber zeros [] (upTo (toString (unsigned n)).toList)
  | _ => c.fillNumber zeros (c.sign (n < 0)) (upTo (toString n.natAbs).toList)

/-- Write a binary number. -/
def real (r : BinaryRange) (c : Conversion) (x : Binary) : List Char :=
  let sign := c.sign x.isNegative
  match x with
  | .infinite _ => c.fillNumber false sign (c.cased "inf".toList)
  | .undefined _ => c.fillNumber false sign (c.cased "nan".toList)
  | .finite _ m e =>
    let (n, d) := Binary.quotient m e
    let precision := c.precision.getD 6
    match c.letter.toLower with
    | 'e' => c.fillNumber true sign (c.cased (Binary.scientific n d precision c.alternate))
    | 'g' => c.fillNumber true sign (c.cased (Binary.general n d precision c.alternate))
    | 'a' =>
      c.fillNumber true (sign ++ c.cased ['0', 'x'])
        (c.cased (Binary.hexadecimal r m e c.precision c.alternate))
    | _ => c.fillNumber true sign (Binary.fixed n d precision c.alternate)

end Conversion

end Conch
