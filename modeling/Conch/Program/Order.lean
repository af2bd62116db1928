-- SUMMARY: Orders on pieces of lines: by bytes, by number, by month and by version.
import Conch.Program.Lines
import Conch.Raw

/-!
# Orders on pieces of lines

A piece of a line is ordered by its bytes, possibly leaving some out and ignoring
case, or by what it stands for: a number, a number with a unit, the name of a
month, or a version.
-/

namespace Conch

namespace Order

/-- The ways to order. -/
inductive Kind where
  | bytes
  | numeric
  /-- Numbers in any notation, also beyond all bounds. -/
  | general
  /-- Numbers with a unit such as `K` or `M`. -/
  | human
  | month
  | version
  | random
  deriving DecidableEq, Repr

/-- A blank, which parts fields. -/
def isBlank (b : UInt8) : Bool := b = 32 || b = 9 || b = 10

/-- A decimal digit. -/
def isDigit (b : UInt8) : Bool := 48 ≤ b && b ≤ 57

/-- A letter. -/
def isLetter (b : UInt8) : Bool := (65 ≤ b && b ≤ 90) || (97 ≤ b && b ≤ 122)

/-- A small letter as a capital one. -/
def capital (b : UInt8) : UInt8 := if 97 ≤ b && b ≤ 122 then b - 32 else b

/-- The order of byte sequences. -/
def compareBytes : Bytes → Bytes → Ordering
  | [], [] => .eq
  | [], _ :: _ => .lt
  | _ :: _, [] => .gt
  | a :: as, b :: bs => if a < b then .lt else if b < a then .gt else compareBytes as bs

/-! ## Numbers -/

/-- A decimal number: its sign, and its digits from the first that is not zero on, the last of them
    not zero either, with the number of places before the point. Zero has no digits. -/
structure Decimal where
  negative : Bool := false
  digits : Bytes := []
  places : Int := 0
  deriving DecidableEq, Repr

/-- The number with given digits before and behind the point, moved by so many places. -/
def Decimal.make (negative : Bool) (whole fraction : Bytes) (shift : Int) : Decimal :=
  let digits := whole ++ fraction
  let zeros := (digits.takeWhile (· = 48)).length
  let digits := ((digits.drop zeros).reverse.dropWhile (· = 48)).reverse
  if digits.isEmpty then {} else { negative, digits, places := (whole.length : Int) - zeros + shift }

/-- The order of numbers without their signs. -/
def Decimal.compareSize (a b : Decimal) : Ordering :=
  if a.digits.isEmpty || b.digits.isEmpty then compare a.digits.length b.digits.length
  else
    match compare a.places b.places with
    | .eq => compareBytes a.digits b.digits
    | o => o

/-- The order of numbers. -/
def Decimal.compare (a b : Decimal) : Ordering :=
  match a.negative, b.negative with
  | true, false => .lt
  | false, true => .gt
  | false, false => a.compareSize b
  | true, true => b.compareSize a

/-- The plain decimal number at the start of a text, and what follows it. -/
def readDecimal (text : Bytes) : Decimal × Bytes :=
  let text := text.dropWhile isBlank
  let (negative, text) := match text with
    | 45 :: rest => (true, rest)
    | _ => (false, text)
  let whole := text.takeWhile isDigit
  let rest := text.drop whole.length
  match rest with
  | 46 :: behind =>
    let fraction := behind.takeWhile isDigit
    (.make negative whole fraction 0, behind.drop fraction.length)
  | _ => (.make negative whole [] 0, rest)

/-- The rank of a unit, zero if it is none. -/
def unitRank (b : UInt8) : Nat :=
  if b = 107 then 1
  else
    match (Raw.bytes "KMGTPEZY").idxOf? b with
    | some i => i + 1
    | none => 0

/-- A number with a unit: the signed rank of the unit, and the number. -/
def readHuman (text : Bytes) : Int × Decimal :=
  let (n, rest) := readDecimal text
  if n.digits.isEmpty then (0, n)
  else
    let rank := (unitRank (rest.headD 0) : Int)
    (if n.negative then -rank else rank, n)

/-- A number in any notation, ordered after what is none. -/
inductive General where
  | none
  | notANumber
  | infinite (negative : Bool)
  | number (n : Decimal)
  deriving DecidableEq, Repr

/-- Whether a text begins with a word, whatever its case. -/
def beginsWith (word : String) (text : Bytes) : Bool :=
  (Raw.bytes word).isPrefixOf (text.map capital)

/-- The exponent at the start of a text. -/
def readExponent (text : Bytes) : Int :=
  match text with
  | e :: rest =>
    if e = 101 || e = 69 then
      let (negative, rest) := match rest with
        | 45 :: rest => (true, rest)
        | 43 :: rest => (false, rest)
        | rest => (false, rest)
      let n : Nat := (rest.takeWhile isDigit).foldl (fun n d => n * 10 + (d.toNat - 48)) 0
      if negative then -(n : Int) else n
    else 0
  | [] => 0

/-- The number in any notation at the start of a text. -/
def readGeneral (text : Bytes) : General :=
  let text := text.dropWhile fun b => b = 32 || (9 ≤ b && b ≤ 13)
  let (negative, text) := match text with
    | 45 :: rest => (true, rest)
    | 43 :: rest => (false, rest)
    | rest => (false, rest)
  if beginsWith "INF" text then .infinite negative
  else if beginsWith "NAN" text then .notANumber
  else
    let whole := text.takeWhile isDigit
    let rest := text.drop whole.length
    let (fraction, rest) := match rest with
      | 46 :: behind =>
        let fraction := behind.takeWhile isDigit
        (fraction, behind.drop fraction.length)
      | _ => ([], rest)
    if whole.isEmpty && fraction.isEmpty then .none
    else .number (.make negative whole fraction (readExponent rest))

/-- The rank of a kind of number. -/
def General.rank : General → Nat
  | .none => 0
  | .notANumber => 1
  | .infinite true => 2
  | .number _ => 3
  | .infinite false => 4

/-- The order of numbers in any notation. -/
def General.compare (a b : General) : Ordering :=
  match a, b with
  | .number m, .number n => m.compare n
  | a, b => Ord.compare a.rank b.rank

/-! ## Months and versions -/

/-- The names of the months. -/
def months : List String :=
  ["JAN", "FEB", "MAR", "APR", "MAY", "JUN", "JUL", "AUG", "SEP", "OCT", "NOV", "DEC"]

/-- The number of the month whose name a text begins with, or zero. -/
def readMonth (text : Bytes) : Nat :=
  let text := text.dropWhile isBlank
  match months.findIdx? fun name => beginsWith name text with
  | some i => i + 1
  | none => 0

/-- The rank of a byte that is no digit in a version. -/
def versionRank : Bytes → Int
  | [] => -1
  | b :: _ =>
    if isDigit b then 0
    else if isLetter b then b.toNat
    else if b = 126 then -2
    else b.toNat + 256

/-- Compare stretches without digits. Gives what follows them if they are equal. -/
def compareLetters : Nat → Bytes → Bytes → Except Ordering (Bytes × Bytes)
  | 0, a, b => .ok (a, b)
  | fuel + 1, a, b =>
    let more := fun (t : Bytes) => !t.isEmpty && !isDigit (t.headD 48)
    if more a || more b then
      match compare (versionRank a) (versionRank b) with
      | .eq => compareLetters fuel a.tail b.tail
      | o => .error o
    else .ok (a, b)

/-- Compare stretches of digits as numbers. Gives what follows them if they are equal. -/
def compareDigits (a b : Bytes) : Except Ordering (Bytes × Bytes) :=
  let a := a.dropWhile (· = 48)
  let b := b.dropWhile (· = 48)
  let m := a.takeWhile isDigit
  let n := b.takeWhile isDigit
  match compare m.length n.length with
  | .eq =>
    match compareBytes m n with
    | .eq => .ok (a.drop m.length, b.drop n.length)
    | o => .error o
  | o => .error o

/-- Compare versions stretch by stretch. -/
def compareStretches : Nat → Bytes → Bytes → Ordering
  | 0, _, _ => .eq
  | fuel + 1, a, b =>
    if a.isEmpty && b.isEmpty then .eq
    else
      match compareLetters (a.length + b.length + 1) a b with
      | .error o => o
      | .ok (a, b) =>
        match compareDigits a b with
        | .error o => o
        | .ok (a, b) => compareStretches fuel a b

/-- What follows the suffixes at the start of a text. -/
def dropSuffixes : Nat → Bytes → Bytes
  | 0, text => text
  | fuel + 1, text =>
    match text with
    | 46 :: c :: rest =>
      if isLetter c || c = 126 then
        dropSuffixes fuel (rest.dropWhile fun b => isLetter b || isDigit b || b = 126)
      else text
    | _ => text

/-- The length of a file name without the suffixes at its end. -/
def stemLength (whole : Nat) : Nat → Bytes → Nat → Nat
  | 0, _, stem => stem
  | _ + 1, [], stem => stem
  | fuel + 1, _ :: rest, _ =>
    stemLength whole fuel (dropSuffixes rest.length rest) (whole - rest.length)

/-- The order of versions. -/
def compareVersions (a b : Bytes) : Ordering :=
  let whole := fun (a b : Bytes) => compareStretches (a.length + b.length + 1) a b
  let rank := fun (t : Bytes) =>
    match t with
    | [] => 0
    | [46] => 1
    | [46, 46] => 2
    | 46 :: _ => 3
    | _ => 4
  match compare (rank a) (rank b) with
  | .eq =>
    if rank a < 3 then .eq
    else
      let m := stemLength a.length (a.length + 1) a 0
      let n := stemLength b.length (b.length + 1) b 0
      match whole (a.take m) (b.take n) with
      | .eq => if m = a.length && n = b.length then .eq else whole a b
      | o => o
  | o => o

end Order

end Conch
