-- SUMMARY: The program wc, which counts lines, words and bytes.
import Conch.Program.Arguments
import Conch.Program.Filter

/-!
# Counting

`wc` counts lines, words, bytes and the width of the widest line in each input,
and in all of them if there are several. Columns are as wide as the sizes of the
inputs may need, and seven wide where a size is not known beforehand.
-/

namespace Conch

namespace Count

/-- What is counted in a text. -/
structure Counts where
  lines : Nat := 0
  words : Nat := 0
  bytes : Nat := 0
  width : Nat := 0

/-- Counting in progress: the counts, whether inside a word, and the width of the line so far. -/
structure State where
  counts : Counts := {}
  inWord : Bool := false
  column : Nat := 0

/-- Count one more byte. -/
def State.step (s : State) (b : UInt8) : State :=
  let c := { s.counts with bytes := s.counts.bytes + 1, width := max s.counts.width s.column }
  if b = 10 then { counts := { c with lines := c.lines + 1 }, inWord := false, column := 0 }
  else if b = 13 || b = 12 then { counts := c, inWord := false, column := 0 }
  else if b = 9 then { counts := c, inWord := false, column := s.column + (8 - s.column % 8) }
  else if b = 11 then { counts := c, inWord := false, column := s.column }
  else if b = 32 then { counts := c, inWord := false, column := s.column + 1 }
  else if 33 ≤ b && b ≤ 126 then
    { counts := { c with words := if s.inWord then c.words else c.words + 1 }
      inWord := true, column := s.column + 1 }
  else { s with counts := c }

/-- Count in a text. -/
def Counts.of (data : Bytes) : Counts :=
  let s := data.foldl State.step {}
  { s.counts with width := max s.counts.width s.column }

/-- The counts of two texts together. -/
def Counts.add (a b : Counts) : Counts :=
  { lines := a.lines + b.lines, words := a.words + b.words, bytes := a.bytes + b.bytes
    width := max a.width b.width }

/-- Which columns are written. -/
structure Columns where
  lines : Bool := false
  words : Bool := false
  chars : Bool := false
  bytes : Bool := false
  width : Bool := false

/-- The counts that are written, in order. -/
def Columns.pick (c : Columns) (n : Counts) : List Nat :=
  (if c.lines then [n.lines] else []) ++ (if c.words then [n.words] else []) ++
    (if c.chars then [n.bytes] else []) ++ (if c.bytes then [n.bytes] else []) ++
    (if c.width then [n.width] else [])

/-- A number with blanks before it. -/
def padded (width n : Nat) : Raw :=
  let digits := toString n
  String.ofList (List.replicate (width - digits.length) ' ') ++ digits

/-- One line of counts. -/
def line (c : Columns) (width : Nat) (n : Counts) (name : Option Raw) : Raw :=
  " ".intercalate ((c.pick n).map (padded width)) ++
    (match name with
      | none => ""
      | some name => " " ++ if name.toList.contains '\n' then Quote.ifNeeded name else name) ++ "\n"

/-- The size of a stored input, `none` for one of another kind, and `some none` for none at all. -/
def sizeOf (operand : Option Raw) : Act (Option (Option Nat)) := do
  let info ← match operand with
    | none | some "-" =>
      match (← read).stdin with
      | .file h => Act.call (.infoOf h)
      | .closed => return some none
      | _ => return none
    | some path =>
      match ← Act.info path true with
      | .ok info => pure (some info)
      | .error _ => return some none
  match info with
  | some { kind := .file _, size, .. } => return some (some size)
  | some _ => return none
  | none => return some none

/-- The width of the columns for some inputs. -/
def widthFor (c : Columns) (operands : List (Option Raw)) : Act Nat := do
  if operands.length = 1 && (c.pick {}).length = 1 then return 1
  let sizes ← operands.mapM sizeOf
  let total := (sizes.filterMap id).foldl (fun sum size => sum + size.getD 0) 0
  let digits := (toString total).length
  return if sizes.any Option.isNone then max 7 digits else digits

/-- What counting has come to: the counts, and whether all inputs could be read. -/
structure Tally where
  counts : Counts := {}
  good : Bool := true

/-- The tallies of two lists of inputs together. -/
def Tally.add (a b : Tally) : Tally where
  counts := a.counts.add b.counts
  good := a.good && b.good

/-- Write one line of counts at once. If that is not possible, it is told in the end without the
    cause. -/
def report (text : Raw) : Act Unit := do
  Act.putText text
  let _ ← Act.flush

/-- Where the names of the inputs come from. -/
inductive Listing where
  | operands
  /-- A file of names, by its own name. -/
  | file (name : Raw)
  deriving DecidableEq

/-- What is wrong with the name of an input, which is the given one of the names. -/
def nameTrouble? (listing : Listing) (position : Nat) (name : Raw) : Option Raw :=
  match listing with
  | .operands => if name.isEmpty then some "invalid zero-length file name" else none
  | .file list =>
    if name.isEmpty then
      some (Quote.ifNeeded list ++ ":" ++ toString position ++ ": invalid zero-length file name")
    else if list = "-" && name = "-" then
      some "when reading file names from stdin, no file name of '-' allowed"
    else none

/-- Count in one input, and write its counts. -/
def countOne (c : Columns) (width : Nat) (operand : Option Raw) : Act Tally := do
  let name := operand.getD "-"
  match ← Act.openInput name with
  | .error e =>
    Act.complain (plainFailure name e)
    return { good := false }
  | .ok source =>
    let (counts, good) ← match ← Act.readAll source with
      | .ok data => pure (Counts.of data, true)
      | .error e =>
        Act.complain (plainFailure (if operand.isNone then "standard input" else name) e)
        pure ({}, false)
    report (line c width counts operand)
    return { counts, good }

/-- Count in each input, from the given position among the names on. -/
def countAll (c : Columns) (width : Nat) (listing : Listing) : Nat → List (Option Raw) → Act Tally
  | _, [] => return {}
  | position, operand :: rest => do
    let first ←
      match operand.bind (nameTrouble? listing position) with
      | some trouble => do
        Act.complain trouble
        pure ({ good := false } : Tally)
      | none => countOne c width operand
    return first.add (← countAll c width listing (position + 1) rest)

/-- Count in all inputs, and write the sum if there are several. -/
def countThese (c : Columns) (width : Nat) (listing : Listing) (operands : List (Option Raw)) : Act Nat := do
  let tally ← countAll c width listing 1 operands
  if 1 < operands.length then report (line c width tally.counts (some "total"))
  if operands.any (·.getD "-" = "-") then Act.closeInput "-"
  return if tally.good then 0 else 1

/-- The names in a list, each ended by a zero byte. -/
def namesIn (data : Bytes) : List Raw :=
  let (names, rest) := Lines.split 0 data
  (names ++ if rest.isEmpty then [] else [rest]).map fun name => Raw.ofBytes (name.filter (· ≠ 0))

/-- The names of the inputs that a file lists, whether the file is stored, and whether it could be
    read to its end. -/
def listed (list : Raw) : Act (List Raw × Bool × Bool) := do
  match ← Act.openInput list with
  | .error e => Act.fail ("cannot open " ++ Quote.always list ++ " for reading: " ++ e.text) 1
  | .ok source =>
    let stored := match ← Act.sourceInfo source with
      | some { kind := .file _, .. } => true
      | _ => false
    match ← Act.readAll source with
    | .ok data => return (namesIn data, stored, true)
    | .error e =>
      Act.complain (Quote.ifNeeded list ++ ": read error: " ++ e.text)
      return ([], stored, false)

/-- The options of the program. -/
def options : List OptionSpec :=
  [ ⟨"c", ["bytes"], .flag⟩, ⟨"m", ["chars"], .flag⟩, ⟨"l", ["lines"], .flag⟩, ⟨"w", ["words"], .flag⟩,
    ⟨"L", ["max-line-length"], .flag⟩, ⟨"files0-from", ["files0-from"], .value⟩ ]

/-- Count lines, words and bytes. -/
def wc : Act Nat := do
  let a ← Act.arguments options
  let (c, list?) ← Act.withOptions a (({}, none) : Columns × Option Raw) 1 fun (c, list?) key value =>
    return match key with
      | "c" => ({ c with bytes := true }, list?)
      | "m" => ({ c with chars := true }, list?)
      | "l" => ({ c with lines := true }, list?)
      | "w" => ({ c with words := true }, list?)
      | "L" => ({ c with width := true }, list?)
      | "files0-from" => (c, some value)
      | _ => (c, list?)
  let c := if (c.pick {}).isEmpty then { lines := true, words := true, bytes := true } else c
  match list? with
  | none =>
    let operands := if a.operands.isEmpty then [none] else a.operands.map some
    let width ← widthFor c operands
    countThese c width .operands operands
  | some list =>
    if let extra :: _ := a.operands then
      Act.complain ("extra operand " ++ Quote.always extra)
      Act.putError "file operands cannot be combined with --files0-from\n"
      Act.putError ("Try '" ++ (← read).name ++ " --help' for more information.\n")
      Act.stop 1
    let (names, stored, read) ← listed list
    let operands := names.map some
    let width ← if stored && !names.isEmpty then widthFor c operands else pure 1
    let code ← countThese c width (.file list) operands
    return if read then code else 1

end Count

end Conch
