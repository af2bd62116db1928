-- SUMMARY: Binary floating-point numbers: reading them from text, adding, and writing them exactly.
import Conch.Program.Number

/-!
# Binary numbers

A number is held as a whole number times a power of two, with a limited count of
bits. Reading rounds to the nearest such number, to an even one in the middle.
Writing is exact: the digits are those of the number itself, rounded at the end.
-/

namespace Conch

/-- Which numbers can be held. -/
structure BinaryRange where
  bits : Nat
  /-- The exponent of the smallest number. -/
  lowest : Int
  /-- The exponent of the power of two that all numbers stay below. -/
  highest : Int

namespace BinaryRange

/-- Numbers of 53 bits. -/
def double : BinaryRange := ⟨53, -1074, 1024⟩

/-- Numbers of 64 bits. -/
def extended : BinaryRange := ⟨64, -16445, 16384⟩

end BinaryRange

/-- A binary number: `mantissa` times two to the `exponent`, or what is no such number. -/
inductive Binary where
  | finite (negative : Bool) (mantissa : Nat) (exponent : Int)
  | infinite (negative : Bool)
  | undefined (negative : Bool)
  deriving DecidableEq, Repr

namespace Binary

/-! ## Rounding -/

/-- A quotient rounded to the nearest whole number, to the even one in the middle. -/
def roundQuotient (n d : Nat) : Nat :=
  let q := n / d
  let twice := 2 * (n % d)
  if twice < d then q else if d < twice then q + 1 else if q % 2 = 0 then q else q + 1

/-- A quotient divided by a power of two, as a quotient. -/
def scaled (n d : Nat) (exponent : Int) : Nat × Nat :=
  if 0 ≤ exponent then (n, d <<< exponent.toNat) else (n <<< (-exponent).toNat, d)

/-- The nearest number to a quotient, and whether the quotient lies outside of the range. -/
def round (r : BinaryRange) (negative : Bool) (n d : Nat) : Binary × Bool :=
  if n = 0 then (.finite negative 0 0, false)
  else
    let guess : Int := max r.lowest ((Nat.log2 n : Int) - (Nat.log2 d : Int) - (r.bits : Int))
    let limit := 1 <<< r.bits
    let (a, b) := scaled n d guess
    let exponent := if a / b < limit then guess else guess + 1
    let (a, b) := scaled n d exponent
    let m := roundQuotient a b
    let (m, exponent) := if m < limit then (m, exponent) else (m / 2, exponent + 1)
    if r.highest < exponent + (r.bits : Int) && limit / 2 ≤ m then (.infinite negative, true)
    else (.finite negative m exponent, m < limit / 2 && a % b ≠ 0)

/-- The size of a finite number as a quotient. -/
def quotient (mantissa : Nat) (exponent : Int) : Nat × Nat :=
  if 0 ≤ exponent then (mantissa <<< exponent.toNat, 1) else (mantissa, 1 <<< (-exponent).toNat)

/-- A whole number. -/
def ofInt (r : BinaryRange) (n : Int) : Binary :=
  (round r (n < 0) n.natAbs 1).1

/-- Whether a number is below zero, or is zero with a sign. -/
def isNegative : Binary → Bool
  | .finite negative _ _ | .infinite negative | .undefined negative => negative

/-- A number that is none. -/
def isUndefined : Binary → Bool
  | .undefined _ => true
  | _ => false

/-- A finite number. -/
def isFinite : Binary → Bool
  | .finite .. => true
  | _ => false

/-- A number that is zero. -/
def isZero : Binary → Bool
  | .finite _ 0 _ => true
  | _ => false

/-! ## Order and arithmetic -/

/-- A finite number as a whole number of units of the given power of two, which is not larger than
    its own. -/
def units (negative : Bool) (mantissa : Nat) (exponent unit : Int) : Int :=
  let n : Int := (mantissa <<< (exponent - unit).toNat : Nat)
  if negative then -n else n

/-- Whether a number is smaller than another. -/
def isLess : Binary → Binary → Bool
  | .undefined _, _ | _, .undefined _ => false
  | .infinite a, .infinite b => a && !b
  | .infinite a, _ => a
  | _, .infinite b => !b
  | .finite s m e, .finite t n f =>
    let unit := min e f
    units s m e unit < units t n f unit

/-- Whether two numbers are the same. -/
def isSame (a b : Binary) : Bool :=
  !a.isUndefined && !b.isUndefined && !a.isLess b && !b.isLess a

/-- The sum of two numbers. -/
def add (r : BinaryRange) : Binary → Binary → Binary
  | .undefined s, _ | _, .undefined s => .undefined s
  | .infinite s, .infinite t => if s = t then .infinite s else .undefined true
  | .infinite s, _ | _, .infinite s => .infinite s
  | .finite s m e, .finite t n f =>
    let unit := min e f
    let sum := units s m e unit + units t n f unit
    let (a, b) := quotient sum.natAbs unit
    if sum = 0 then .finite (s && t) 0 0 else (round r (sum < 0) a b).1

/-- A multiple of a number. -/
def times (r : BinaryRange) (k : Nat) : Binary → Binary
  | .finite s m e =>
    let (a, b) := quotient (k * m) e
    (round r s a b).1
  | x => x

/-! ## Reading -/

/-- The value of a digit in base sixteen. -/
def hexValue? (c : Char) : Option Nat :=
  if c.isDigit then some (c.toNat - 48)
  else if 'a' ≤ c && c ≤ 'f' then some (c.toNat - 87)
  else if 'A' ≤ c && c ≤ 'F' then some (c.toNat - 55)
  else none

/-- Digits before and behind a point, as one number, the count of those behind, and the rest. -/
def readDigits? (value? : Char → Option Nat) (base : Nat) (cs : List Char) :
    Option (Nat × Nat × List Char) :=
  let isDigit := fun c => (value? c).isSome
  let whole := cs.takeWhile isDigit
  let rest := cs.drop whole.length
  let (fraction, after) := match rest with
    | '.' :: behind =>
      let fraction := behind.takeWhile isDigit
      (fraction, behind.drop fraction.length)
    | _ => ([], rest)
  if whole.isEmpty && fraction.isEmpty then none
  else
    let value := (whole ++ fraction).foldl (fun n c => n * base + (value? c).getD 0) 0
    some (value, fraction.length, after)

/-- The exponent after one of two letters, and the rest. -/
def readExponent (small big : Char) (cs : List Char) : Int × List Char :=
  match cs with
  | e :: rest =>
    if e = small || e = big then
      let (negative, digits) := match rest with
        | '-' :: rest => (true, rest)
        | '+' :: rest => (false, rest)
        | rest => (false, rest)
      let number := digits.takeWhile Char.isDigit
      if number.isEmpty then (0, cs)
      else
        let n : Int := (Number.ofDigits number : Nat)
        (if negative then -n else n, digits.drop number.length)
    else (0, cs)
  | [] => (0, cs)

/-- An exponent beyond which nothing can be held. -/
def farExponent : Int := 40000

/-- A number times a power of a base, rounded. -/
def powerRound (r : BinaryRange) (negative : Bool) (n base : Nat) (exponent : Int) : Binary × Bool :=
  if n = 0 then (.finite negative 0 0, false)
  else
    -- A long number with a small exponent may still be held.
    let size : Int := (Nat.log2 n : Int)
    if farExponent < exponent then (.infinite negative, true)
    else if exponent < -(farExponent + size) then (.finite negative 0 0, true)
    else if 0 ≤ exponent then round r negative (n * Nat.pow base exponent.toNat) 1
    else round r negative n (Nat.pow base (-exponent).toNat)

/-- The text in capitals. -/
def upper (cs : List Char) : List Char := cs.map Char.toUpper

/-- What is read at the start of a text. -/
structure Reading where
  value : Binary
  /-- The value could not be held. -/
  outOfRange : Bool := false
  rest : List Char

/-- Read a number without its sign. -/
def readUnsigned? (r : BinaryRange) (negative : Bool) (cs : List Char) : Option Reading :=
  let begins := fun (word : String) => word.toList.isPrefixOf (upper cs)
  if begins "INFINITY" then some { value := .infinite negative, rest := cs.drop 8 }
  else if begins "INF" then some { value := .infinite negative, rest := cs.drop 3 }
  else if begins "NAN" then
    let rest := cs.drop 3
    let rest := match rest with
      | '(' :: inside =>
        let name := inside.takeWhile fun c => c.isAlphanum || c = '_'
        match inside.drop name.length with
        | ')' :: rest => rest
        | _ => rest
      | _ => rest
    some { value := .undefined negative, rest }
  else
    let hex := match cs with
      | '0' :: x :: digits => if x = 'x' || x = 'X' then readDigits? hexValue? 16 digits else none
      | _ => none
    match hex with
    | some (n, places, rest) =>
      let (exponent, rest) := readExponent 'p' 'P' rest
      let (value, outOfRange) := powerRound r negative n 2 (exponent - 4 * (places : Int))
      some { value, outOfRange, rest }
    | none =>
      match readDigits? (fun c => if c.isDigit then some (c.toNat - 48) else none) 10 cs with
      | none => none
      | some (n, places, rest) =>
        let (exponent, rest) := readExponent 'e' 'E' rest
        let (value, outOfRange) := powerRound r negative n 10 (exponent - (places : Int))
        some { value, outOfRange, rest }

/-- Read the number at the start of a text, if there is one. -/
def read? (r : BinaryRange) (text : Raw) : Option Reading :=
  match text.toList.dropWhile Number.isBlank with
  | '-' :: cs => readUnsigned? r true cs
  | '+' :: cs => readUnsigned? r false cs
  | cs => readUnsigned? r false cs

/-! ## Writing -/

/-- The decimal digits of a number, at least so many. -/
def digitsUpTo (width : Nat) (n : Nat) : List Char :=
  let digits := (toString n).toList
  List.replicate (width - digits.length) '0' ++ digits

/-- Digits with a point before the last so many. -/
def pointed (places : Nat) (keepPoint : Bool) (digits : List Char) : List Char :=
  let whole := digits.take (digits.length - places)
  if places = 0 then whole ++ (if keepPoint then ['.'] else [])
  else whole ++ '.' :: digits.drop (digits.length - places)

/-- A quotient in plain notation with so many places. -/
def fixed (n d places : Nat) (keepPoint : Bool) : List Char :=
  pointed places keepPoint (digitsUpTo (places + 1) (roundQuotient (n * Nat.pow 10 places) d))

/-- A quotient times a power of ten, rounded. -/
def roundScaled (n d : Nat) (power : Int) : Nat :=
  if 0 ≤ power then roundQuotient (n * Nat.pow 10 power.toNat) d
  else roundQuotient n (d * Nat.pow 10 (-power).toNat)

/-- The decimal exponent of a quotient that is not zero. -/
def decimalExponent (n d : Nat) : Int :=
  let guess : Int := ((toString n).length : Int) - ((toString d).length : Int)
  let isBelow := fun (e : Int) =>
    if 0 ≤ e then n < d * Nat.pow 10 e.toNat else n * Nat.pow 10 (-e).toNat < d
  if isBelow guess then guess - 1 else guess

/-- The digits of a quotient in scientific notation with so many places, and its exponent. -/
def scientificDigits (n d places : Nat) : Nat × Int :=
  if n = 0 then (0, 0)
  else
    let e := decimalExponent n d
    let m := roundScaled n d ((places : Int) - e)
    if (toString m).length ≤ places + 1 then (m, e) else (m / 10, e + 1)

/-- An exponent as it is written, of at least so many digits. -/
def exponentText (mark : Char) (width : Nat) (e : Int) : List Char :=
  mark :: (if e < 0 then '-' else '+') :: digitsUpTo width e.natAbs

/-- A quotient in scientific notation. -/
def scientific (n d places : Nat) (keepPoint : Bool) : List Char :=
  let (m, e) := scientificDigits n d places
  pointed places keepPoint (digitsUpTo (places + 1) m) ++ exponentText 'e' 2 e

/-- A text without the zeros at its end, and without a point that would then stand there. -/
def withoutZeros (cs : List Char) : List Char :=
  if cs.contains '.' then
    match cs.reverse.dropWhile (· = '0') with
    | '.' :: rest => rest.reverse
    | rest => rest.reverse
  else cs

/-- A quotient in the shorter of both notations, with so many digits that count. -/
def general (n d precision : Nat) (keepAll : Bool) : List Char :=
  let precision := max precision 1
  let (m, e) := scientificDigits n d (precision - 1)
  let trim := fun cs => if keepAll then cs else withoutZeros cs
  if -4 ≤ e && e < (precision : Int) then
    trim (fixed n d ((precision : Int) - 1 - e).toNat keepAll)
  else
    trim (pointed (precision - 1) keepAll (digitsUpTo precision m)) ++ exponentText 'e' 2 e

/-- The digits of a number in base sixteen. -/
def hexDigits (width n : Nat) : List Char :=
  let digits := Nat.toDigits 16 n
  List.replicate (width - digits.length) '0' ++ digits

/-- A number in base sixteen with a binary exponent. -/
def hexadecimal (r : BinaryRange) (mantissa : Nat) (exponent : Int) (precision : Option Nat)
    (keepPoint : Bool) : List Char :=
  -- The digits behind the point hold all bits but those of the first digit.
  let places := (r.bits - 1) / 4
  let top := r.bits - places * 4
  let bits := Nat.log2 mantissa + 1
  let (m, e) :=
    if mantissa = 0 then (0, 0)
    else if exponent = r.lowest || bits = r.bits then (mantissa, exponent)
    else (mantissa <<< (r.bits - bits), exponent - ((r.bits - bits : Nat) : Int))
  let e := if mantissa = 0 then 0 else e + (4 * places : Nat)
  let whole := 1 <<< top
  let (first, fraction, e) := match precision with
    | some p =>
      if p < places then
        let m := roundQuotient m (Nat.pow 16 (places - p))
        let first := m / Nat.pow 16 p
        if whole ≤ first && top = 4 then (1, m % Nat.pow 16 p, e + 4) else (first, m % Nat.pow 16 p, e)
      else (m / Nat.pow 16 places, m % Nat.pow 16 places * Nat.pow 16 (p - places), e)
    | none => (m / Nat.pow 16 places, m % Nat.pow 16 places, e)
  let behind := match precision with
    | some p => (hexDigits p fraction).take p
    | none => ((hexDigits places fraction).reverse.dropWhile (· = '0')).reverse
  let point := if behind.isEmpty && !keepPoint then [] else ['.']
  hexDigits 1 first ++ point ++ behind ++ exponentText 'p' 1 e

end Binary

end Conch
