-- SUMMARY: Numbers in the arguments of programs, with suffixes for multiples.
import Conch.Program.Act
import Conch.Program.Quote

/-!
# Numbers in arguments

A number is decimal and may have a suffix that multiplies it: `k`, `M` and so on
by powers of 1024, the same with `B` behind by powers of 1000, and `b` by 512. A
suffix alone counts as one of its kind. What is too large is told apart from what
is no number.
-/

namespace Conch

namespace Number

/-- Why a text gives no number. -/
inductive Trouble where
  | invalid
  | tooLarge
  deriving DecidableEq, Repr

/-- The largest number of 64 bits. -/
def largest : Nat := 18446744073709551615

/-- The number that decimal digits write. -/
def ofDigits (cs : List Char) : Nat :=
  cs.foldl (fun n c => n * 10 + (c.toNat - 48)) 0

/-- A blank. -/
def isBlank (c : Char) : Bool := c = ' ' || ('\t' ≤ c && c ≤ '\r')

/-- The power that a suffix stands for. -/
def power? : Char → Option Nat
  | 'k' | 'K' => some 1
  | 'm' | 'M' => some 2
  | 'g' | 'G' => some 3
  | 't' | 'T' => some 4
  | 'P' => some 5
  | 'E' => some 6
  | 'Z' => some 7
  | 'Y' => some 8
  | _ => none

/-- A power. -/
def powered (base : Nat) : Nat → Nat
  | 0 => 1
  | n + 1 => base * powered base n

/-- What a suffix multiplies by, if it is one of the allowed ones. -/
def factor? (suffixes : String) (suffix : List Char) : Option Nat :=
  match suffix with
  | [] => some 1
  | c :: rest =>
    if !suffixes.toList.contains c then none
    else if c = 'b' then if rest.isEmpty then some 512 else none
    else
      match power? c, rest with
      | some n, [] => some (powered 1024 n)
      | some n, ['i', 'B'] => some (powered 1024 n)
      | some n, ['B'] => some (powered 1000 n)
      | _, _ => none

/-- The number that a text gives, if it is not larger than the given one. -/
def parse (suffixes : String) (most : Nat) (text : Raw) : Except Trouble Nat :=
  let cs := text.toList.dropWhile isBlank
  let cs := match cs with
    | '+' :: rest => if (rest.head?.map Char.isDigit).getD false then rest else cs
    | _ => cs
  let digits := cs.takeWhile Char.isDigit
  let suffix := cs.drop digits.length
  if digits.isEmpty && (suffix.isEmpty || suffix.length ≠ text.length) then .error .invalid
  else
    match factor? suffixes suffix with
    | none => .error .invalid
    | some factor =>
      let n := (if digits.isEmpty then 1 else ofDigits digits) * factor
      if most < n then .error .tooLarge else .ok n

/-- The value of a digit, in any base up to sixteen. -/
def digit? (c : Char) : Option Nat :=
  if c.isDigit then some (c.toNat - 48)
  else if 'a' ≤ c && c ≤ 'f' then some (c.toNat - 87)
  else if 'A' ≤ c && c ≤ 'F' then some (c.toNat - 55)
  else none

/-- Whether a character is a digit in a base. -/
def isDigitIn (base : Nat) (c : Char) : Bool :=
  match digit? c with
  | some d => d < base
  | none => false

/-- The number at the start of a text in a base, and what follows it, if there are digits. -/
def digitsIn? (base : Nat) (cs : List Char) : Option (Nat × List Char) :=
  let digits := cs.takeWhile (isDigitIn base)
  if digits.isEmpty then none
  else some (digits.foldl (fun n c => n * base + (digit? c).getD 0) 0, cs.drop digits.length)

/-- The number at the start of a text, in the base that its first digits tell. -/
def anyBase? (cs : List Char) : Option (Nat × List Char) :=
  match cs with
  | '0' :: x :: rest =>
    if (x = 'x' || x = 'X') && (rest.head?.map (isDigitIn 16)).getD false then digitsIn? 16 rest
    else digitsIn? 8 cs
  | '0' :: _ => digitsIn? 8 cs
  | _ => digitsIn? 10 cs

/-- The signed number at the start of a text, and what follows it. -/
def integer? (text : Raw) : Option (Int × List Char) :=
  match text.toList.dropWhile isBlank with
  | '-' :: cs => (anyBase? cs).map fun (n, rest) => (-(n : Int), rest)
  | '+' :: cs => (anyBase? cs).map fun (n, rest) => ((n : Int), rest)
  | cs => (anyBase? cs).map fun (n, rest) => ((n : Int), rest)

/-- The nearest number of 64 bits with a sign. -/
def clampSigned (n : Int) : Int :=
  max (-9223372036854775808) (min 9223372036854775807 n)

/-- The number of 64 bits without a sign; a negative one counts back from the largest. -/
def clampUnsigned (n : Int) : Int :=
  if (largest : Int) < n || n < -(largest : Int) then (largest : Int) else n % 18446744073709551616

/-- What is told of a text that gives no number. -/
def trouble (what : Raw) (text : Raw) : Trouble → Raw
  | .invalid => what ++ ": " ++ Quote.plain text
  | .tooLarge => what ++ ": " ++ Quote.plain text ++ ": Value too large for defined data type"

/-- The number that a text gives; a text that gives none ends the program. -/
def expect (suffixes : String) (most : Nat) (what : Raw) (text : Raw) (code : Nat) : Act Nat :=
  match parse suffixes most text with
  | .ok n => return n
  | .error t => Act.fail (trouble what text t) code

/-- The suffixes that counts of lines and bytes may have. -/
def countSuffixes : String := "bkKmMGTPEZY"

end Number

end Conch
