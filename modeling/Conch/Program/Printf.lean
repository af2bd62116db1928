-- SUMMARY: The program printf, which writes its arguments by a format.
import Conch.Program.Arguments
import Conch.Program.Conversion

/-!
# Formats

A format is text with conversions in it, each of which takes an argument. The
format is used again as long as arguments are left, and an argument that is
missing counts as empty or zero. What is wrong with an argument is told and counts
as a failure, but writing goes on.
-/

namespace Conch

namespace Printf

/-- What writing has come to. -/
structure Progress where
  args : List Raw
  /-- All arguments so far made sense. -/
  good : Bool := true

/-- A part of the program: what is written so far is its state. -/
abbrev Writing := StateT Progress Act

/-- Do something that writes. -/
def act {α : Type} (a : Act α) : Writing α := liftM a

/-- Write characters. -/
def put (cs : List Char) : Writing Unit := act (Act.putText (String.ofList cs))

/-- Take the next argument. -/
def next? : Writing (Option Raw) := do
  let p ← get
  match p.args with
  | [] => return none
  | arg :: rest =>
    set { p with args := rest }
    return some arg

/-- Tell what is wrong with an argument, and go on. -/
def wrong (text : Raw) : Writing Unit := do
  modify fun p => { p with good := false }
  act (Act.complain text)

/-! ## Numbers -/

/-- The number of a character after a quote. What follows the character is not used. -/
def quoted? (arg : Raw) : Writing (Option Nat) := do
  match arg.toList with
  | q :: c :: rest =>
    if q = '"' || q = '\'' then
      let isStrict := (← read).environment.any (·.1 = "POSIXLY_CORRECT")
      if !rest.isEmpty && !isStrict then
        act (Act.complain ("warning: " ++ String.ofList rest ++
          ": character(s) following character constant have been ignored"))
      return some c.toNat
    else return none
  | _ => return none

/-- Tell that an argument is too large, or no number, or not only one. -/
def check (arg : Raw) (outOfRange : Bool) (rest : Option (List Char)) : Writing Unit :=
  if outOfRange then wrong (Quote.plain arg ++ ": Numerical result out of range")
  else
    match rest with
    | some [] => return ()
    | some _ => wrong (Quote.plain arg ++ ": value not completely converted")
    | none => if arg.isEmpty then return () else wrong (Quote.plain arg ++ ": expected a numeric value")

/-- The whole number that an argument means, brought into a range. -/
def integer (clamp : Int → Int) (isOutside : Int → Bool) (arg : Raw) : Writing Int := do
  match ← quoted? arg with
  | some n => return n
  | none =>
    match Number.integer? arg with
    | some (n, rest) =>
      check arg (isOutside n) (some rest)
      return clamp n
    | none =>
      check arg false none
      return 0

/-- The whole number with a sign that an argument means. -/
def signed (arg : Raw) : Writing Int :=
  integer Number.clampSigned (fun n => Number.clampSigned n ≠ n) arg

/-- The whole number without a sign that an argument means. -/
def unsigned (arg : Raw) : Writing Int :=
  integer Number.clampUnsigned (fun n => (Number.largest : Int) < n || n < -(Number.largest : Int)) arg

/-- The binary number that an argument means. -/
def real (arg : Raw) : Writing Binary := do
  match ← quoted? arg with
  | some n => return .ofInt .extended n
  | none =>
    match Binary.read? .extended arg with
    | some reading =>
      check arg reading.outOfRange (some reading.rest)
      return reading.value
    | none =>
      check arg false none
      return .finite false 0 0

/-! ## Escapes -/

/-- What a letter after a backslash stands for. -/
def letter? : Char → Option Char
  | '"' => some '"'
  | '\\' => some '\\'
  | 'a' => some '\x07'
  | 'b' => some '\x08'
  | 'e' => some '\x1b'
  | 'f' => some '\x0c'
  | 'n' => some '\n'
  | 'r' => some '\r'
  | 't' => some '\t'
  | 'v' => some '\x0b'
  | _ => none

/-- What is told of an escape that lacks its digits. -/
def noDigits : Raw := "missing hexadecimal number in escape"

/-- A number in base sixteen with so many digits. -/
def hexText (width n : Nat) (big : Bool) : List Char :=
  let digits := Binary.hexDigits width n
  if big then digits.map Char.toUpper else digits

/-- Write the character with a number in the alphabet of all languages. Those beyond the basic
    alphabet are written as escapes. -/
def unicode (mark : Char) (width : Nat) (cs : List Char) : Writing Unit := do
  let digits := cs.take width
  if digits.length < width || !digits.all (Number.isDigitIn 16) then act (Act.fail noDigits 1)
  else
    let n := ((Number.digitsIn? 16 digits).map (·.1)).getD 0
    if (n ≤ 159 && n ≠ 36 && n ≠ 64 && n ≠ 96) || (55296 ≤ n && n ≤ 57343) then
      act (Act.fail ("invalid universal character name \\" ++ String.ofList (mark :: hexText width n false)) 1)
    else if n < 128 then put [Char.ofNat n]
    else if n < 65536 then put ('\\' :: 'u' :: hexText 4 n true)
    else put ('\\' :: 'U' :: hexText 8 n true)

/-- Write the escape that begins after a backslash, and give what follows it. With `zeroFirst`, an
    octal number may have a zero before its three digits. -/
def escape (zeroFirst : Bool) (cs : List Char) : Writing (List Char) := do
  match cs with
  | [] =>
    put ['\\']
    return []
  | c :: rest =>
    if c = 'c' then act (Act.stop 0)
    else if c = 'x' then
      let digits := (rest.take 2).takeWhile (Number.isDigitIn 16)
      match Number.digitsIn? 16 digits with
      | none => act (Act.fail noDigits 1)
      | some (n, _) =>
        put [Char.ofNat n]
        return rest.drop digits.length
    else if Number.isDigitIn 8 c then
      let start := if zeroFirst && c = '0' then rest else c :: rest
      let digits := (start.take 3).takeWhile (Number.isDigitIn 8)
      put [Char.ofNat ((((Number.digitsIn? 8 digits).map (·.1)).getD 0) % 256)]
      return start.drop digits.length
    else
      match letter? c with
      | some d =>
        put [d]
        return rest
      | none =>
        if c = 'u' || c = 'U' then
          let width := if c = 'u' then 4 else 8
          unicode c width rest
          return rest.drop width
        else
          put ['\\', c]
          return rest

/-- Write a text with escapes in it. `fuel` bounds the characters read. -/
def escaped : Nat → List Char → Writing Unit
  | 0, _ | _, [] => return ()
  | fuel + 1, '\\' :: rest => do escaped fuel (← escape true rest)
  | fuel + 1, c :: rest => do
    put [c]
    escaped fuel rest

/-! ## Conversions -/

/-- The letters of conversions. -/
def letters : List Char := "aAcdeEfFgGiosuxX".toList

/-- The letters that cannot have a mark. -/
def without : Char → List Char
  | '\'' | 'I' => "aAceEosxX".toList
  | '#' => "cdisu".toList
  | '0' => "cs".toList
  | '.' => ['c']
  | _ => []

/-- The largest width. -/
def mostWidth : Int := 2147483647

/-- A width or precision: from an argument, or digits, and what follows it. -/
def size (what : Raw) (least : Int) (cs : List Char) : Writing (Option Int × List Char) := do
  match cs with
  | '*' :: rest =>
    match ← next? with
    | none => return (some 0, rest)
    | some arg =>
      let n ← signed arg
      if mostWidth < n || n < least then act (Act.fail (what ++ ": " ++ Quote.plain arg) 1)
      else return (some n, rest)
  | _ =>
    let digits := cs.takeWhile Char.isDigit
    return (if digits.isEmpty then none else some (Number.ofDigits digits : Nat), cs.drop digits.length)

/-- Write an argument by a conversion. -/
def convert (c : Conversion) (arg : Raw) : Writing Unit := do
  match c.letter with
  | 's' => put (c.text arg)
  | 'c' => put (c.fill [arg.toList.headD '\x00'])
  | 'd' | 'i' => put (c.integer (← signed arg))
  | 'o' | 'u' | 'x' | 'X' => put (c.integer (← unsigned arg))
  | _ => put (c.real .extended (← real arg))

/-- Write by the conversion that begins after a percent sign, and give what follows it. -/
def conversion (cs : List Char) : Writing (List Char) := do
  match cs with
  | '%' :: rest =>
    put ['%']
    return rest
  | 'b' :: rest =>
    if let some arg ← next? then escaped (arg.length + 1) arg.toList
    return rest
  | 'q' :: rest =>
    if let some arg ← next? then put (Quote.asTyped arg).toList
    return rest
  | _ =>
    let marks := cs.takeWhile ("I'-+ #0".toList.contains ·)
    let (width, rest) ← size "invalid field width" (-mostWidth - 1) (cs.drop marks.length)
    let (precision, rest) ← match rest with
      | '.' :: rest =>
        let (n, rest) ← size "invalid precision" (-9223372036854775808) rest
        pure (some (n.getD 0), rest)
      | _ => pure (none, rest)
    let rest := rest.dropWhile ("hlLjzt".toList.contains ·)
    let used := cs.take (cs.length - rest.length)
    let excluded := marks.flatMap without ++ (if precision.isSome then without '.' else [])
    match rest with
    | [] => act (Act.fail ("%" ++ String.ofList used ++ ": invalid conversion specification") 1)
    | letter :: rest =>
      if !letters.contains letter || excluded.contains letter then
        act (Act.fail ("%" ++ String.ofList (used ++ [letter]) ++ ": invalid conversion specification") 1)
      else
        let c := marks.foldl Conversion.mark ({ letter } : Conversion)
        let c := { c.sized (width.getD 0) with precision := (precision.filter (0 ≤ ·)).map Int.toNat }
        convert c ((← next?).getD "")
        return rest

/-- Write by a format once. `fuel` bounds the characters read. -/
def once : Nat → List Char → Writing Unit
  | 0, _ | _, [] => return ()
  | fuel + 1, '%' :: rest => do once fuel (← conversion rest)
  | fuel + 1, '\\' :: rest => do once fuel (← escape false rest)
  | fuel + 1, c :: rest => do
    put [c]
    once fuel rest

/-- Write by a format as long as it takes arguments and some are left. `fuel` bounds how often. -/
def repeatedly (format : Raw) : Nat → Writing Unit
  | 0 => return ()
  | fuel + 1 => do
    let before := (← get).args.length
    once (format.length + 1) format.toList
    let after := (← get).args.length
    if after < before && 0 < after then repeatedly format fuel else return ()

/-- Write arguments by a format. -/
def printf : Act Nat := do
  let args := (← read).args
  let words := match args with
    | "--" :: rest => rest
    | words => words
  match words with
  | [] => Act.misused "missing operand" 1
  | format :: rest =>
    if args = ["--help"] || args = ["--version"] then return 0
    let ((), p) ← (repeatedly format (rest.length + 1)).run { args := rest }
    if let some arg := p.args.head? then
      Act.complain ("warning: ignoring excess arguments, starting with " ++ Quote.plain arg)
    return if p.good then 0 else 1

end Printf

end Conch
