-- SUMMARY: The program seq, which writes the numbers of an arithmetic sequence.
import Conch.Program.Arguments
import Conch.Program.Conversion

/-!
# Sequences of numbers

`seq` writes numbers from a first to a last one by equal steps. Whole numbers are
counted exactly, whatever their size; all others are binary numbers of 64 bits.
How many places are written follows from how the operands are written, unless a
format is given.
-/

namespace Conch

namespace Sequence

/-- The numbers that are used. -/
def range : BinaryRange := .extended

/-! ## Operands -/

/-- A number as an operand: its value, and the width and the places of its text. -/
structure Operand where
  value : Binary
  width : Int := 0
  /-- The places behind the point, if the text tells. -/
  precision : Option Nat := none

/-- The operand that stands for one. -/
def Operand.one : Operand := { value := .ofInt range 1, width := 1, precision := some 0 }

/-- The exponent in a text after its mark. -/
def exponentOf (cs : List Char) : Int :=
  match cs.dropWhile Number.isBlank with
  | '-' :: cs => -(Number.ofDigits (cs.takeWhile Char.isDigit) : Nat)
  | '+' :: cs => (Number.ofDigits (cs.takeWhile Char.isDigit) : Nat)
  | cs => (Number.ofDigits (cs.takeWhile Char.isDigit) : Nat)

/-- The width and the places of a decimal text. -/
def shape (cs : List Char) : Int × Nat :=
  let beforePoint := cs.takeWhile (· ≠ '.')
  let hasPoint := cs.contains '.'
  let fraction := (cs.drop (beforePoint.length + 1)).takeWhile fun c => c ≠ 'e' && c ≠ 'E'
  let places := if hasPoint then fraction.length else 0
  let width : Int := cs.length
  let width :=
    if !hasPoint then width
    else if places = 0 then width - 1
    else if (beforePoint.getLast?.map Char.isDigit).getD false then width
    else width + 1
  let mark := if cs.contains 'e' then 'e' else 'E'
  if !cs.contains mark then (width, places)
  else
    let beforeMark := cs.takeWhile (· ≠ mark)
    let exponent := exponentOf (cs.drop (beforeMark.length + 1))
    let width := width - ((cs.length - beforeMark.length : Nat) : Int)
    if exponent < 0 then
      let width :=
        if hasPoint then (if beforeMark.length = beforePoint.length + 1 then width + 1 else width)
        else width + 1
      (width - exponent, places + exponent.natAbs)
    else
      let exponent := exponent.toNat
      let kept := places - min places exponent
      let width := if hasPoint && kept = 0 && 0 < places then width - 1 else width
      (width + ((exponent - min places exponent : Nat) : Int), kept)

/-- Read an operand; one that is no number ends the program. -/
def operand (text : Raw) : Act Operand := do
  let wrong {α : Type} : Act α := Act.misused ("invalid floating point argument: " ++ Quote.plain text) 1
  match Binary.read? range text with
  | none => wrong
  | some reading =>
    if !reading.rest.isEmpty || (reading.outOfRange && !reading.value.isZero) then wrong
    else if reading.value.isUndefined then
      Act.misused ("invalid 'not-a-number' argument: " ++ Quote.plain text) 1
    else
      let cs := text.toList.dropWhile fun c => Number.isBlank c || c = '+'
      let isHex := cs.contains 'x' || cs.contains 'X'
      if !isHex && reading.value.isFinite then
        let (width, places) := shape cs
        return { value := reading.value, width, precision := some places }
      else
        return { value := reading.value
                 precision := if cs.contains '.' || cs.contains 'p' then none else some 0 }

/-! ## Formats -/

/-- How a number is written: the text before it, the conversion, and the text after it. -/
structure Layout where
  before : List Char := []
  conversion : Conversion
  after : List Char := []

/-- Why a format makes no sense. -/
inductive FormatTrouble where
  | noPlace
  | unfinished
  | unknown (c : Char)
  | severalPlaces
  deriving DecidableEq, Repr

/-- The diagnostic for a format that makes no sense. -/
def FormatTrouble.message (format : Raw) : FormatTrouble → Raw
  | .noPlace => "format " ++ Quote.plain format ++ " has no % directive"
  | .unfinished => "format " ++ Quote.plain format ++ " ends in %"
  | .unknown c => "format " ++ Quote.plain format ++ " has unknown %" ++ String.ofList [c] ++ " directive"
  | .severalPlaces => "format " ++ Quote.plain format ++ " has too many % directives"

/-- The text up to a place for a number, and what follows its mark, if there is one. -/
def plainText : List Char → List Char × Option (List Char)
  | [] => ([], none)
  | '%' :: '%' :: rest =>
    let (text, place) := plainText rest
    ('%' :: text, place)
  | '%' :: rest => ([], some rest)
  | c :: rest =>
    let (text, place) := plainText rest
    (c :: text, place)

/-- The largest width that is told apart. -/
def mostWidth : Nat := 2147483647

/-- Read a format. -/
def layout (format : Raw) : Except FormatTrouble Layout :=
  match plainText format.toList with
  | (_, none) => .error .noPlace
  | (before, some rest) =>
    let marks := rest.takeWhile ("-+#0 '".toList.contains ·)
    let rest := rest.drop marks.length
    let width := rest.takeWhile Char.isDigit
    let rest := rest.drop width.length
    let (precision, rest) := match rest with
      | '.' :: rest =>
        let digits := rest.takeWhile Char.isDigit
        (some (min (Number.ofDigits digits) mostWidth), rest.drop digits.length)
      | _ => (none, rest)
    let rest := match rest with
      | 'L' :: rest => rest
      | _ => rest
    match rest with
    | [] => .error .unfinished
    | c :: rest =>
      if !"efgaEFGA".toList.contains c then .error (.unknown c)
      else
        match plainText rest with
        | (_, some _) => .error .severalPlaces
        | (after, none) =>
          let conversion := marks.foldl Conversion.mark
            ({ letter := c, width := min (Number.ofDigits width) mostWidth, precision } : Conversion)
          .ok { before, conversion, after }

/-- The layout that follows from the operands. -/
def defaultLayout (equalWidth : Bool) (first step last : Operand) : Layout :=
  match first.precision, step.precision, last.precision with
  | some p, some q, some r =>
    let places := max p q
    let conversion : Conversion := { letter := 'f', precision := some places }
    if equalWidth then
      let firstWidth := first.width + ((places : Int) - (p : Int)) + (if p = 0 && 0 < places then 1 else 0)
      let lastWidth := last.width + ((places : Int) - (r : Int)) +
        (if 0 < r && places = 0 then -1 else if r = 0 && 0 < places then 1 else 0)
      { conversion := { conversion with zero := true, width := (max firstWidth lastWidth).toNat } }
    else { conversion }
  | _, _, _ => { conversion := { letter := 'g' } }

/-- The text of a number, without what stands around it. -/
def Layout.number (l : Layout) (x : Binary) : List Char := l.conversion.real range x

/-! ## Writing -/

/-- How many numbers are written at once. -/
def batch : Nat := 1024

/-- Write whole numbers, with a text before each but the first. -/
def writeWhole (separator : Bytes) (step : Nat) (last : Option Nat) : Nat → Nat → Act Unit
  | 0, _ => return ()
  | fuel + 1, next => do
    let count := match last with
      | some last => if last < next then 0 else min batch ((last - next) / step + 1)
      | none => batch
    if count = 0 then return ()
    let texts := (List.range count).map fun i => separator ++ Raw.bytes (toString (next + i * step))
    Act.putOrFail texts.flatten
    writeWhole separator step last fuel (next + count * step)

/-- Write the whole numbers from one to another, if the first is not larger. -/
def whole (separator : Raw) (first step : Nat) (last : Option Nat) : Act Unit := do
  Act.putOrFail (Raw.bytes (toString first))
  writeWhole (Raw.bytes separator) step last manyRounds (first + step)
  Act.putOrFail [10]

/-- Write binary numbers. The index tells how many were written. -/
def writeBinary (l : Layout) (separator : Raw) (first step last : Binary) :
    Nat → Nat → Binary → Act Unit
  | 0, _, _ => return ()
  | fuel + 1, index, x => do
    let text := l.number x
    Act.putOrFail (Raw.bytes (String.ofList (l.before ++ text ++ l.after)))
    let isPast := fun (x : Binary) => if step.isLess (.finite false 0 0) then x.isLess last else last.isLess x
    if isPast x then return ()
    let next := first.add range (step.times range (index + 1))
    -- A number just behind the last one is written if it reads as the last one.
    let nextText := l.number next
    let reads := match Binary.read? range (String.ofList nextText) with
      | some reading => reading.rest.isEmpty && reading.value.isSame last
      | none => false
    if isPast next && !(reads && nextText ≠ text) then return ()
    Act.putOrFail (Raw.bytes separator)
    writeBinary l separator first step last fuel (index + 1) next

/-- Write the numbers between two others. -/
def binary (l : Layout) (separator : Raw) (first step last : Binary) : Act Unit := do
  let isPast := if step.isLess (.finite false 0 0) then first.isLess last else last.isLess first
  if isPast then return ()
  writeBinary l separator first step last manyRounds 0 first
  Act.putOrFail [10]

/-- What the options ask for. -/
structure Style where
  format : Option Raw := none
  separator : Raw := "\n"
  equalWidth : Bool := false

/-- The options of the program. -/
def options : List OptionSpec :=
  [⟨"f", ["format"], .value⟩, ⟨"s", ["separator"], .value⟩, ⟨"w", ["equal-width"], .flag⟩]

/-- Whether a word is a negative number rather than options. -/
def isNegative (word : Raw) : Bool :=
  match word.toList with
  | '-' :: c :: _ => c = '.' || c.isDigit
  | _ => false

/-- The largest step by which whole numbers are counted exactly. -/
def mostStep : Nat := 200

/-- The whole number of a text that is digits only. -/
def digits? (text : Raw) : Option Nat :=
  if !text.isEmpty && text.toList.all Char.isDigit then some (Number.ofDigits text.toList) else none

/-- The whole numbers of operands that are written with digits only. -/
def plain? : List Raw → Option (Nat × Nat × Nat)
  | [last] => (digits? last).map fun n => (1, 1, n)
  | [first, last] => do return (← digits? first, 1, ← digits? last)
  | [first, step, last] => do return (← digits? first, ← digits? step, ← digits? last)
  | _ => none

/-- The whole number that a binary number is. -/
def wholeOf? (x : Binary) : Option Nat :=
  match x with
  | .finite negative m e =>
    if negative then none
    else
      let (n, d) := Binary.quotient m e
      some (Binary.roundQuotient n d)
  | _ => none

/-- Write the numbers of an arithmetic sequence. -/
def seq : Act Nat := do
  let a := Arguments.sortWith isNegative (options ++ Act.commonOptions) false (← read).args
  let style ← Act.withOptions a ({} : Style) 1 fun style key value =>
    return match key with
      | "f" => { style with format := some value }
      | "s" => { style with separator := value }
      | _ => { style with equalWidth := true }
  match a.operands with
  | [] => Act.misused "missing operand" 1
  | _ :: _ :: _ :: extra :: _ => Act.misused ("extra operand " ++ Quote.plain extra) 1
  | operands =>
    let format ← style.format.mapM fun f =>
      match layout f with
      | .ok l => pure l
      | .error e => Act.fail (e.message f) 1
    if format.isSome && style.equalWidth then
      Act.misused "format string may not be specified when printing equal width strings" 1
    let isPlain := !style.equalWidth && format.isNone && style.separator.length = 1
    if let some (first, step, last) := plain? operands then
      if isPlain && 0 < step && step ≤ mostStep && first ≤ last then
        whole style.separator first step (some last)
        return 0
    let numbers ← operands.zipIdx.mapM fun (text, i) => do
      let n ← operand text
      if i = 1 && operands.length = 3 && n.value.isZero then
        Act.misused ("invalid Zero increment value: " ++ Quote.plain text) 1
      return n
    let (first, step, last) : Operand × Operand × Operand := match numbers with
      | [last] => (.one, .one, last)
      | [first, last] => (first, .one, last)
      | [first, step, last] => (first, step, last)
      | _ => (.one, .one, .one)
    let areWhole := [first, step, last].all fun n => n.precision = some 0
    if isPlain && areWhole && first.value.isFinite then
      match wholeOf? first.value, wholeOf? step.value with
      | some n, some k =>
        if 0 < k && k ≤ mostStep then
          match last.value with
          | .infinite false =>
            whole style.separator n k none
            return 0
          | value =>
            match wholeOf? value with
            | some m =>
              if n ≤ m then
                whole style.separator n k (some m)
                return 0
            | none => pure ()
      | _, _ => pure ()
    let l := format.getD (defaultLayout style.equalWidth first step last)
    binary l style.separator first.value step.value last.value
    return 0

end Sequence

end Conch
