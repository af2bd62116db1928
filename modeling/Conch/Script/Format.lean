-- SUMMARY: The built-in commands echo and printf, which write texts with escapes and by a format.
import Conch.Program.Conversion
import Conch.Script.Shell

/-!
# Writing

`echo` writes its arguments with the escapes in them replaced. `printf` writes by a
format, which is used again as long as it takes arguments and some are left.
-/

namespace Conch

namespace Script

namespace Format

/-! ## Escapes -/

/-- What a letter after a backslash stands for. -/
def letter? : Char → Option Char
  | '\\' => some '\\'
  | 'a' => some '\x07'
  | 'b' => some '\x08'
  | 'e' => some '\x1b'
  | 'f' => some '\x0c'
  | 'n' => some '\n'
  | 'r' => some '\r'
  | 't' => some '\t'
  | 'v' => some '\x0b'
  | _ => none

/-- The character that stands behind a backslash, and what follows it. A backslash that begins no
    escape stands for itself. -/
def escape (cs : List Char) : Char × List Char :=
  match cs with
  | [] => ('\\', [])
  | c :: rest =>
    if Number.isDigitIn 8 c then
      let digits := (cs.take 3).takeWhile (Number.isDigitIn 8)
      let n := ((Number.digitsIn? 8 digits).map (·.1)).getD 0
      (Char.ofNat (n % 256), cs.drop digits.length)
    else
      match letter? c with
      | some d => (d, rest)
      | none => ('\\', cs)

/-- A text with its escapes replaced, and whether one of them ends all output. `fuel` bounds the
    characters. -/
def escaped : Nat → List Char → List Char × Bool
  | 0, _ | _, [] => ([], false)
  | fuel + 1, '\\' :: cs =>
    match cs with
    | 'c' :: _ => ([], true)
    | cs =>
      let cs := match cs with
        | '0' :: d :: rest => if Number.isDigitIn 8 d then d :: rest else cs
        | _ => cs
      let (c, rest) := escape cs
      let (after, ends) := escaped fuel rest
      (c :: after, ends)
  | fuel + 1, c :: cs =>
    let (after, ends) := escaped fuel cs
    (c :: after, ends)

/-- A text with its escapes replaced. -/
def unescape (text : Raw) : List Char × Bool := escaped (text.length + 1) text.toList

/-! ## Echo -/

/-- Write arguments one after the other, and a line end unless told otherwise. -/
def echoAll (isLine : Bool) : List Raw → ShellM Unit
  | [] => if isLine then put "\n" else return ()
  | arg :: rest => do
    let (text, ends) := unescape arg
    put (String.ofList text)
    if ends then return ()
    if !rest.isEmpty then put " "
    echoAll isLine rest

/-- Write arguments. -/
def echo (args : List Raw) : ShellM Nat := do
  match args with
  | "-n" :: rest => echoAll false rest
  | args => echoAll true args
  return 0

/-! ## Formats -/

/-- What writing by a format has come to. -/
structure Progress where
  args : List Raw
  isGood : Bool := true
  isOver : Bool := false

/-- A part of the work on a format. -/
abbrev Writing := StateT Progress ShellM

/-- Write characters. -/
def putChars (cs : List Char) : Writing Unit := (put (String.ofList cs) : ShellM Unit)

/-- Take the next argument. -/
def next? : Writing (Option Raw) := do
  let p ← get
  match p.args with
  | [] => return none
  | arg :: rest =>
    set { p with args := rest }
    return some arg

/-- Tell what is wrong with an argument and go on. -/
def doubt (text : Raw) : Writing Unit := do
  modify fun p => { p with isGood := false }
  (complain text : ShellM Unit)

/-- Check how an argument was read as a number: what is left of it, if it began as one, and whether it
    was too large. -/
def check (arg : Raw) (rest : Option (List Char)) (isOutside : Bool) : Writing Unit :=
  match rest with
  | none => if arg.isEmpty then return () else doubt (arg ++ ": expected numeric value")
  | some (_ :: _) => doubt (arg ++ ": not completely converted")
  | some [] => if isOutside then doubt (arg ++ ": Numerical result out of range") else return ()

/-- The number of the character after a quote. -/
def quoted? (arg : Raw) : Option Nat :=
  match arg.toList with
  | q :: rest => if q = '"' || q = '\'' then some (rest.headD '\x00').toNat else none
  | [] => none

/-- The whole number that the next argument means. -/
def integer (isSigned : Bool) : Writing Int := do
  match ← next? with
  | none => return 0
  | some arg =>
    match quoted? arg with
    | some n => return n
    | none =>
      match Number.integer? arg with
      | none =>
        check arg none false
        return 0
      | some (n, rest) =>
        let (value, isOutside) := if isSigned then (Number.clampSigned n, decide (Number.clampSigned n ≠ n))
          else (Number.clampUnsigned n, decide ((Number.largest : Int) < n || n < -(Number.largest : Int)))
        check arg (some rest) isOutside
        return value

/-- The binary number that the next argument means. -/
def real : Writing Binary := do
  match ← next? with
  | none => return .finite false 0 0
  | some arg =>
    match quoted? arg with
    | some n => return .ofInt .double n
    | none =>
      match Binary.read? .double arg with
      | none =>
        check arg none false
        return .finite false 0 0
      | some reading =>
        check arg (some reading.rest) reading.outOfRange
        return reading.value

/-- A width or precision: from an argument, or digits. -/
def size (cs : List Char) : Writing (Option Int × List Char) := do
  match cs with
  | '*' :: rest => return (some (← integer true), rest)
  | _ =>
    let digits := cs.takeWhile Char.isDigit
    return (if digits.isEmpty then none else some (Number.ofDigits digits : Nat), cs.drop digits.length)

/-- Write the next argument by the conversion behind a percent sign. Gives what follows it. -/
def conversion (cs : List Char) : Writing (List Char) := do
  let marks := cs.takeWhile ("#-+ 0".toList.contains ·)
  let (width, rest) ← size (cs.drop marks.length)
  let (precision, rest) ← match rest with
    | '.' :: rest =>
      let (n, rest) ← size rest
      pure (some (n.getD 0), rest)
    | _ => pure (none, rest)
  match rest with
  | [] => (trouble "missing format character" : ShellM (List Char))
  | letter :: after =>
    let c := marks.foldl Conversion.mark ({ letter } : Conversion)
    let c := { c.sized (width.getD 0) with precision := (precision.filter (0 ≤ ·)).map Int.toNat }
    match letter with
    | 'b' =>
      let (text, ends) := unescape ((← next?).getD "")
      putChars (c.text (String.ofList text))
      if ends then modify fun p => { p with isOver := true }
    | 's' => putChars (c.text ((← next?).getD ""))
    | 'c' => putChars (c.fill [(((← next?).getD "").toList.headD '\x00')])
    | 'd' | 'i' => putChars (c.integer (← integer true))
    | 'o' | 'u' | 'x' | 'X' => putChars (c.integer (← integer false))
    | 'a' | 'A' | 'e' | 'E' | 'f' | 'F' | 'g' | 'G' => putChars (c.real .double (← real))
    | _ =>
      let used := String.ofList (cs.take (cs.length - after.length))
      (trouble ("%" ++ used ++ ": invalid directive") : ShellM Unit)
    return after

/-- Write by a format once. `fuel` bounds the characters read. -/
def once : Nat → List Char → Writing Unit
  | 0, _ | _, [] => return ()
  | fuel + 1, '%' :: '%' :: rest => do
    putChars ['%']
    once fuel rest
  | fuel + 1, '%' :: rest => do
    let rest ← conversion rest
    if !(← get).isOver then once fuel rest
  | fuel + 1, '\\' :: rest => do
    let (c, rest) := escape rest
    putChars [c]
    once fuel rest
  | fuel + 1, c :: rest => do
    putChars [c]
    once fuel rest

/-- Write by a format as long as it takes arguments and some are left. `fuel` bounds how often. -/
def repeatedly (format : Raw) : Nat → Writing Unit
  | 0 => return ()
  | fuel + 1 => do
    let before := (← get).args.length
    once (format.length + 1) format.toList
    let p ← get
    if !p.isOver && p.args.length < before && !p.args.isEmpty then repeatedly format fuel

/-- Write arguments by a format. -/
def printf (args : List Raw) : ShellM Nat := do
  let words := match args with
    | "--" :: rest => rest
    | words => words
  match words with
  | [] => trouble "usage: printf format [arg ...]"
  | format :: rest =>
    if format.startsWith "-" && 1 < format.length && args.head? ≠ some "--" then
      trouble ("Illegal option -" ++ String.ofList ((format.toList.drop 1).take 1))
    let ((), p) ← (repeatedly format (rest.length + 1)).run { args := rest }
    return if p.isGood then 0 else 1

end Format

end Script

end Conch
