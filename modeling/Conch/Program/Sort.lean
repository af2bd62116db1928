-- SUMMARY: The program sort, which writes lines in order.
import Conch.Program.Arguments
import Conch.Program.Filter
import Conch.Program.Number
import Conch.Program.Order

/-!
# Sorting lines

`sort` orders the lines of all its inputs by keys. A key is a stretch of a line,
from one position to another, with its own way to order; without keys whole lines
are compared. Lines whose keys are all equal are ordered by all their bytes, unless
the order of the input is to be kept. The program can also merge sorted inputs, or
only check whether its input is in order.
-/

namespace Conch

namespace Sorting

open Order (Kind)

/-- How pieces of lines are ordered. -/
structure Manner where
  kinds : List Kind := []
  /-- Only letters, digits and blanks count. -/
  dictionary : Bool := false
  /-- Only bytes that can be shown count. -/
  printing : Bool := false
  foldCase : Bool := false
  /-- Blanks at the start of a key's beginning or end are skipped. -/
  skipStart : Bool := false
  skipEnd : Bool := false
  reverse : Bool := false
  deriving DecidableEq, Repr

/-- The way to order. -/
def Manner.kind (m : Manner) : Kind := m.kinds.head?.getD .bytes

/-- Whether nothing but the direction is special. -/
def Manner.isDefault (m : Manner) : Bool :=
  { m with reverse := false } = {}

/-- A stretch of a line that is compared. -/
structure Key where
  /-- The field and the byte it starts at, counted from zero. -/
  startField : Nat := 0
  startByte : Nat := 0
  /-- The last field, counted from zero, and how many of its bytes belong to the key; none means all. -/
  stop : Option (Nat × Nat) := none
  manner : Manner := {}
  deriving DecidableEq, Repr

/-- What is to be done with the inputs. -/
inductive Task where
  | sort
  | merge
  /-- Check the order, and tell where it is broken or not. -/
  | check (told : Bool)
  deriving DecidableEq, Repr

/-- What the options ask for. -/
structure Request where
  task : Task := .sort
  keys : List Key := []
  manner : Manner := {}
  unique : Bool := false
  stable : Bool := false
  tab : Option UInt8 := none
  eol : UInt8 := Lines.feed
  output : Option Raw := none

/-! ## Keys of lines -/

/-- Drop so many fields, with the separators that begin or end them. -/
def dropFields (tab : Option UInt8) : Nat → Bytes → Bytes
  | 0, line => line
  | n + 1, line =>
    match tab with
    | none => dropFields tab n ((line.dropWhile Order.isBlank).dropWhile fun b => !Order.isBlank b)
    | some t => dropFields tab n ((line.dropWhile (· ≠ t)).drop 1)

/-- What stands in a line from the start of a key on. -/
def fromStart (tab : Option UInt8) (k : Key) (line : Bytes) : Bytes :=
  let rest := dropFields tab k.startField line
  (if k.manner.skipStart then rest.dropWhile Order.isBlank else rest).drop k.startByte

/-- How many bytes of a line stand behind the end of a key. -/
def behindEnd (tab : Option UInt8) (k : Key) (line : Bytes) : Nat :=
  match k.stop with
  | none => 0
  | some (field, 0) =>
    match tab with
    | none => (dropFields tab (field + 1) line).length
    | some t => ((dropFields tab field line).dropWhile (· ≠ t)).length
  | some (field, bytes) =>
    let rest := dropFields tab field line
    ((if k.manner.skipEnd then rest.dropWhile Order.isBlank else rest).drop bytes).length

/-- The stretch of a line that a key stands for. -/
def stretch (tab : Option UInt8) (k : Key) (line : Bytes) : Bytes :=
  let rest := fromStart tab k line
  rest.take (rest.length - behindEnd tab k line)

/-- What a stretch is ordered by. -/
inductive Value where
  | bytes (data : Bytes)
  | number (n : Order.Decimal)
  | general (n : Order.General)
  | human (rank : Int) (n : Order.Decimal)
  | month (n : Nat)
  | version (data : Bytes)

/-- What a stretch is ordered by in a certain manner. -/
def valueOf (m : Manner) (data : Bytes) : Value :=
  let counts := fun (b : UInt8) =>
    (!m.dictionary || Order.isLetter b || Order.isDigit b || Order.isBlank b) &&
      (!m.printing || (32 ≤ b && b ≤ 126))
  let data := if m.dictionary || m.printing then data.filter counts else data
  let data := if m.foldCase then data.map Order.capital else data
  match m.kind with
  | .bytes | .random => .bytes data
  | .numeric => .number (Order.readDecimal data).1
  | .general => .general (Order.readGeneral data)
  | .human =>
    let (rank, n) := Order.readHuman data
    .human rank n
  | .month => .month (Order.readMonth data)
  | .version => .version data

/-- The order of values of one kind. -/
def Value.compare : Value → Value → Ordering
  | .bytes a, .bytes b => Order.compareBytes a b
  | .number a, .number b => a.compare b
  | .general a, .general b => a.compare b
  | .human r a, .human s b =>
    match Ord.compare r s with
    | .eq => a.compare b
    | o => o
  | .month a, .month b => Ord.compare a b
  | .version a, .version b => Order.compareVersions a b
  | _, _ => .eq

/-- A line with what it is ordered by, for each key, and whether the order is turned round. -/
structure Item where
  line : Bytes
  values : List (Value × Bool)

/-- Prepare a line for being compared. -/
def Request.item (r : Request) (line : Bytes) : Item :=
  { line, values := r.keys.map fun k => (valueOf k.manner (stretch r.tab k line), k.manner.reverse) }

/-- The order by keys alone. -/
def compareValues : List (Value × Bool) → List (Value × Bool) → Ordering
  | (a, reverse) :: as, (b, _) :: bs =>
    match a.compare b with
    | .eq => compareValues as bs
    | o => if reverse then o.swap else o
  | _, _ => .eq

/-- The order of lines. -/
def Request.compare (r : Request) (a b : Item) : Ordering :=
  let byBytes := fun (_ : Unit) =>
    let o := Order.compareBytes a.line b.line
    if r.manner.reverse then o.swap else o
  if r.keys.isEmpty then byBytes ()
  else
    match compareValues a.values b.values with
    | .eq => if r.unique || r.stable then .eq else byBytes ()
    | o => o

/-- Drop lines that equal the one before. -/
def Request.distinct (r : Request) : Option Item → List Item → List Item
  | _, [] => []
  | none, a :: rest => a :: r.distinct (some a) rest
  | some b, a :: rest => if r.compare b a = .eq then r.distinct (some b) rest else a :: r.distinct (some a) rest

/-- Merge two lists; of equal lines those of the first come first. `fuel` is their length together. -/
def Request.merge (r : Request) : Nat → List Item → List Item → List Item
  | 0, _, _ => []
  | fuel + 1, a :: as, b :: bs =>
    if r.compare b a = .lt then b :: r.merge fuel (a :: as) bs else a :: r.merge fuel as (b :: bs)
  | _ + 1, [], bs => bs
  | _ + 1, as, [] => as

/-- The lines of inputs in order. -/
def Request.ordered (r : Request) (inputs : List (List Bytes)) : List Bytes :=
  let items := inputs.map fun lines => lines.map r.item
  let all :=
    if r.task = .merge then
      items.foldl (fun merged more => r.merge (merged.length + more.length) merged more) []
    else items.flatten.mergeSort fun a b => r.compare a b ≠ .gt
  (if r.unique then r.distinct none all else all).map (·.line)

/-- The first line that is out of order, with its number. -/
def Request.disorder (r : Request) : Nat → List Item → Option (Nat × Bytes)
  | n, a :: b :: rest =>
    let o := r.compare a b
    if o = .gt || (r.unique && o = .eq) then some (n + 1, b.line) else r.disorder (n + 1) (b :: rest)
  | _, _ => none

/-! ## Options -/

/-- The code for trouble. -/
def trouble : Nat := 2

/-- Which ends of a key a letter about blanks applies to. -/
inductive Blanks where
  | start
  | stop
  | both
  deriving DecidableEq, Repr

/-- Take the letters at the start of a text that say how to order, and give what follows them. -/
def readLetters (blanks : Blanks) : List Char → Manner → Manner × List Char
  | [], m => (m, [])
  | c :: cs, m =>
    let kind := fun k => readLetters blanks cs { m with kinds := m.kinds ++ [k] }
    match c with
    | 'b' =>
      readLetters blanks cs
        { m with skipStart := m.skipStart || blanks ≠ .stop, skipEnd := m.skipEnd || blanks ≠ .start }
    | 'd' => readLetters blanks cs { m with dictionary := true }
    | 'f' => readLetters blanks cs { m with foldCase := true }
    | 'i' => readLetters blanks cs { m with printing := true }
    | 'r' => readLetters blanks cs { m with reverse := true }
    | 'g' => kind .general
    | 'h' => kind .human
    | 'M' => kind .month
    | 'n' => kind .numeric
    | 'R' => kind .random
    | 'V' => kind .version
    | _ => (m, c :: cs)

/-- The number at the start of a text, and what follows it. -/
def readNumber (what : Raw) (cs : List Char) : Act (Nat × List Char) := do
  let digits := cs.takeWhile Char.isDigit
  if digits.isEmpty then
    Act.fail (what ++ ": invalid count at start of " ++ Quote.plain (String.ofList cs)) trouble
  return (Number.ofDigits digits, cs.drop digits.length)

/-- Tell that a key makes no sense, and end. -/
def badKey {α : Type} (what spec : Raw) : Act α :=
  Act.fail (what ++ ": invalid field specification " ++ Quote.plain spec) trouble

/-- The key that a text describes. -/
def readKey (spec : Raw) : Act Key := do
  let (field, rest) ← readNumber "invalid number at field start" spec.toList
  if field = 0 then badKey "field number is zero" spec
  let (byte, rest) ← match rest with
    | '.' :: rest =>
      let (byte, rest) ← readNumber "invalid number after '.'" rest
      if byte = 0 then badKey "character offset is zero" spec
      pure (byte, rest)
    | _ => pure (1, rest)
  let (manner, rest) := readLetters .start rest {}
  match rest with
  | [] => return { startField := field - 1, startByte := byte - 1, manner }
  | ',' :: rest =>
    let (last, rest) ← readNumber "invalid number after ','" rest
    if last = 0 then badKey "field number is zero" spec
    let (bytes, rest) ← match rest with
      | '.' :: rest => readNumber "invalid number after '.'" rest
      | _ => pure (0, rest)
    let (manner, rest) := readLetters .stop rest manner
    if !rest.isEmpty then badKey "stray character in field spec" spec
    return { startField := field - 1, startByte := byte - 1, stop := some (last - 1, bytes), manner }
  | _ => badKey "stray character in field spec" spec

/-- The old way to write a key: `+start -end`, counted from zero. -/
def readOldKey (start : Raw) (stop : Option Raw) : Act Key := do
  let position := fun (what : Raw) (cs : List Char) => do
    let (field, rest) ← readNumber what cs
    match rest with
    | '.' :: rest =>
      let (byte, rest) ← readNumber "invalid number after '.'" rest
      return (field, byte, rest)
    | _ => return (field, 0, rest)
  let (field, byte, rest) ← position "invalid number at field start" (start.toList.drop 1)
  let (manner, rest) := readLetters .start rest {}
  if !rest.isEmpty then badKey "stray character in field spec" start
  match stop with
  | none => return { startField := field, startByte := byte, manner }
  | some text =>
    let (last, bytes, rest) ← position "invalid number after '-'" (text.toList.drop 1)
    let (manner, rest) := readLetters .stop rest manner
    if !rest.isEmpty then badKey "stray character in field spec" text
    let stop := if bytes = 0 then (if last = 0 then none else some (last - 1, 0)) else some (last, bytes)
    return { startField := field, startByte := byte, stop, manner }

/-- The byte that parts fields. -/
def readTab (text : Raw) : Act UInt8 := do
  match Raw.bytes text with
  | [] => Act.fail "empty tab" trouble
  | [b] => return b
  | [92, 48] => return 0
  | _ => Act.fail ("multi-character tab " ++ Quote.plain text) trouble

/-- The options of the program. -/
def options : List OptionSpec :=
  [ ⟨"b", ["ignore-leading-blanks"], .flag⟩, ⟨"d", ["dictionary-order"], .flag⟩,
    ⟨"f", ["ignore-case"], .flag⟩, ⟨"g", ["general-numeric-sort"], .flag⟩,
    ⟨"i", ["ignore-nonprinting"], .flag⟩, ⟨"M", ["month-sort"], .flag⟩,
    ⟨"h", ["human-numeric-sort"], .flag⟩, ⟨"n", ["numeric-sort"], .flag⟩,
    ⟨"R", ["random-sort"], .flag⟩, ⟨"random-source", ["random-source"], .value⟩,
    ⟨"r", ["reverse"], .flag⟩, ⟨"sort", ["sort"], .value⟩, ⟨"V", ["version-sort"], .flag⟩,
    ⟨"batch-size", ["batch-size"], .value⟩, ⟨"c", [], .flag⟩, ⟨"check", ["check"], .optional⟩,
    ⟨"C", [], .flag⟩, ⟨"compress-program", ["compress-program"], .value⟩, ⟨"debug", ["debug"], .flag⟩,
    ⟨"files0-from", ["files0-from"], .value⟩, ⟨"k", ["key"], .value⟩, ⟨"m", ["merge"], .flag⟩,
    ⟨"o", ["output"], .value⟩, ⟨"s", ["stable"], .flag⟩, ⟨"S", ["buffer-size"], .value⟩,
    ⟨"t", ["field-separator"], .value⟩, ⟨"T", ["temporary-directory"], .value⟩,
    ⟨"parallel", ["parallel"], .value⟩, ⟨"u", ["unique"], .flag⟩, ⟨"y", [], .optional⟩,
    ⟨"z", ["zero-terminated"], .flag⟩ ]

/-- The letters that say how to order in a word. -/
def sortWords : List (String × Char) :=
  [("general-numeric", 'g'), ("human-numeric", 'h'), ("month", 'M'), ("numeric", 'n'), ("random", 'R'),
   ("version", 'V')]

/-- Take one option. -/
def take (r : Request) (key : String) (value : Raw) : Act Request := do
  match key with
  | "b" | "d" | "f" | "g" | "i" | "M" | "h" | "n" | "R" | "r" | "V" =>
    return { r with manner := (readLetters .both key.toList r.manner).1 }
  | "sort" =>
    match sortWords.find? fun (word, _) => word.startsWith value with
    | some (_, c) => return { r with manner := (readLetters .both [c] r.manner).1 }
    | none =>
      Act.complain ("invalid argument " ++ Quote.plain value ++ " for '--sort'")
      Act.putError ("Valid arguments are:\n" ++ String.join (sortWords.map fun (w, _) => "  - '" ++ w ++ "'\n"))
      Act.putError ("Try '" ++ (← read).name ++ " --help' for more information.\n")
      Act.stop 1
  | "c" => return { r with task := .check true }
  | "C" => return { r with task := .check false }
  | "check" =>
    return { r with task := .check (value = "" || "diagnose-first".startsWith value) }
  | "k" => return { r with keys := r.keys ++ [← readKey value] }
  | "m" => return { r with task := .merge }
  | "o" =>
    match r.output with
    | some old => if old ≠ value then Act.fail "multiple output files specified" trouble
    | none => pure ()
    return { r with output := some value }
  | "s" => return { r with stable := true }
  | "t" =>
    let tab ← readTab value
    match r.tab with
    | some old => if old ≠ tab then Act.fail "incompatible tabs" trouble
    | none => pure ()
    return { r with tab := some tab }
  | "u" => return { r with unique := true }
  | "z" => return { r with eol := 0 }
  | _ => return r

/-- Replace keys that are written the old way among some words by options. -/
def modernize : List Raw → Act (List Key × List Raw)
  | [] => return ([], [])
  | "--" :: rest => return ([], "--" :: rest)
  | word :: rest => do
    match word.toList with
    | '+' :: c :: _ =>
      if !c.isDigit then
        let (keys, words) ← modernize rest
        return (keys, word :: words)
      match rest with
      | [] => return ([← readOldKey word none], [])
      | next :: more =>
        match next.toList with
        | '-' :: d :: _ =>
          if d.isDigit then
            let key ← readOldKey word (some next)
            let (keys, words) ← modernize more
            return (key :: keys, words)
          let key ← readOldKey word none
          let (keys, words) ← modernize (next :: more)
          return (key :: keys, words)
        | _ =>
          let key ← readOldKey word none
          let (keys, words) ← modernize (next :: more)
          return (key :: keys, words)
    | _ =>
      let (keys, words) ← modernize rest
      return (keys, word :: words)

/-- The letters of a manner that do not go together, if there are such. -/
def clash? (m : Manner) : Option String :=
  let letterOf := fun (k : Kind) =>
    match k with
    | .general => "g" | .human => "h" | .month => "M" | .numeric => "n" | .random => "R" | .version => "V"
    | .bytes => ""
  let kinds := ([.general, .human, .month, .numeric, .random, .version] : List Kind).filter m.kinds.contains
  let exclusive := kinds.filter fun k => k ≠ .random && k ≠ .version
  let texts := (if m.dictionary || m.printing then 1 else 0) +
    (if kinds.contains .random || kinds.contains .version then 1 else 0)
  if 1 < exclusive.length + texts then
    some (String.join (["d", "f"].filter (fun c => (c = "d" && m.dictionary) || (c = "f" && m.foldCase)) ++
      ((["g", "h"].filter fun c => (kinds.map letterOf).contains c) ++
        (if m.printing && !m.dictionary then ["i"] else []) ++
        (["M", "n", "R", "V"].filter fun c => (kinds.map letterOf).contains c))))
  else none

/-! ## The program -/

/-- Tell of trouble with a file, and end. -/
def fileTrouble {α : Type} (what : Raw) (path : Raw) (e : Errno) : Act α :=
  Act.fail (what ++ ": " ++ Quote.ifNeeded path ++ ": " ++ e.text) trouble

/-- Read the lines of an input. -/
def readLines (eol : UInt8) (operand : Raw) : Act (List Bytes) := do
  match ← Act.openInput operand with
  | .error e => fileTrouble "open failed" operand e
  | .ok source =>
    match ← Act.readAll source with
    | .error e => fileTrouble "read failed" operand e
    | .ok data => return Lines.all eol data

/-- Give the keys without a manner of their own that of the whole request. -/
def Request.settle (r : Request) : Request :=
  let keys := r.keys.map fun k =>
    if k.manner.isDefault && !k.manner.reverse then { k with manner := r.manner } else k
  if keys.isEmpty && !r.manner.isDefault then { r with keys := [{ manner := r.manner }] }
  else { r with keys }

/-- Write lines to the output. If it is closed, the first file that was opened may have its place. -/
def write (r : Request) (operands : List Raw) (lines : List Bytes) : Act Unit := do
  let data := Lines.join r.eol lines
  let failed := fun (what : Raw) (name : Raw) (e : Errno) => do
    Act.complain (what ++ ": " ++ name ++ ": " ++ e.text)
    if r.output.isNone then
      let i ← read
      let isClosed := i.stdout = .closed && (i.stdin = .closed || operands.all (· = "-"))
      Act.complain ("write error" ++ if isClosed then ": " ++ Errno.badDescriptor.text else "")
    Act.stop trouble
  let sink ← match r.output with
    | none => pure (← read).stdout
    | some path =>
      match ← Act.openOutput path .truncate with
      | .ok sink => pure sink
      | .error e => fileTrouble "open failed" path e
  match ← Act.writeNow sink data with
  | .ok () => return ()
  | .error e =>
    let name := match r.output with
      | none => "'standard output'"
      | some path => Quote.ifNeeded path
    failed (if Act.bufferSize < data.length then "write failed" else "fflush failed") name e

/-- Sort lines. -/
def sort : Act Nat := do
  let (oldKeys, args) ← modernize (← read).args
  let a ← withReader (fun i => { i with args }) (Act.arguments options)
  let r ← Act.withOptions a ({ keys := oldKeys } : Request) trouble take
  for m in r.keys.map (·.manner) ++ [r.manner] do
    match clash? m with
    | some letters => Act.fail ("options '-" ++ letters ++ "' are incompatible") trouble
    | none => pure ()
  let r := r.settle
  let operands := if a.operands.isEmpty then ["-"] else a.operands
  match r.task with
  | .check told =>
    match operands with
    | [operand] =>
      let lines ← readLines r.eol operand
      match r.disorder 1 (lines.map r.item) with
      | none => return 0
      | some (n, line) =>
        if told then
          Act.complain (operand ++ ":" ++ toString n ++ ": disorder: " ++ Raw.ofBytes line)
        return 1
    | _ =>
      Act.fail ("extra operand " ++ Quote.plain (operands.tail.headD "") ++ " not allowed with -" ++
        (if told then "c" else "C")) trouble
  | _ =>
    for operand in operands do
      if operand ≠ "-" && (Act.streamNumber? operand).isNone then
        match ← Act.info operand true with
        | .ok _ => pure ()
        | .error e => fileTrouble "cannot read" operand e
    if let some path := r.output then
      match ← Act.openOutput path .update with
      | .ok _ => pure ()
      | .error e => fileTrouble "open failed" path e
    if r.task ≠ .merge && operands.contains "-" && (← read).stdin = .closed then
      fileTrouble "stat failed" "-" .badDescriptor
    let inputs ← operands.mapM (readLines r.eol)
    write r operands (r.ordered inputs)
    return 0

end Sorting

end Conch
