-- SUMMARY: The program cat, which copies its inputs, and may number lines and show what is in them.
import Conch.Program.Arguments
import Conch.Program.Filter

/-!
# Copying inputs

`cat` copies its inputs one after the other to its output. Options make it number
lines, drop repeated empty ones, and show line ends, tabs and bytes that are no
characters. What an input leaves unfinished the next one goes on with.
-/

namespace Conch

namespace Cat

/-- What is to be shown. -/
structure Style where
  number : Bool := false
  /-- Number only lines that are not empty. -/
  nonBlank : Bool := false
  squeeze : Bool := false
  ends : Bool := false
  tabs : Bool := false
  nonPrinting : Bool := false
  deriving DecidableEq, Repr

/-- Where the output stands. -/
structure State where
  /-- The number of the last numbered line. -/
  line : Nat := 0
  /-- Whether the output is inside a line. -/
  inLine : Bool := false
  /-- How many empty lines were just written, up to two. -/
  empties : Nat := 0
  /-- Whether a carriage return waits for what follows it. -/
  carriageReturn : Bool := false

/-- A line's number as it is shown. -/
def numberText (n : Nat) : Bytes :=
  let digits := toString n
  Raw.bytes (String.ofList (List.replicate (6 - digits.length) ' ') ++ digits ++ "\t")

/-- A byte as it is shown if bytes that are no characters are to be seen. -/
def shown (tabs : Bool) (b : UInt8) : Bytes :=
  let low := fun (b : UInt8) =>
    if b < 32 then [94, b + 64] else if b = 127 then [94, 63] else [b]
  if b = 9 && !tabs then [b]
  else if b < 128 then low b
  else [77, 45] ++ low (b - 128)

/-- The end of a line. -/
def endLine (style : Style) (s : State) : State × Bytes :=
  let mark : Bytes := if style.ends then (if s.carriageReturn then [94, 77, 36] else [36]) else []
  if s.inLine then ({ s with inLine := false, empties := 0, carriageReturn := false }, mark ++ [10])
  else
    let empties := min (s.empties + 1) 2
    if empties = 2 && style.squeeze then ({ s with empties }, [])
    else if style.number && !style.nonBlank then
      ({ s with empties, line := s.line + 1, carriageReturn := false }, numberText (s.line + 1) ++ mark ++ [10])
    else ({ s with empties, carriageReturn := false }, mark ++ [10])

/-- A byte inside a line; `next` is the byte after it, if there is one at hand. -/
def inside (style : Style) (s : State) (b : UInt8) (next : Option UInt8) : State × Bytes :=
  let before : Bytes := if s.carriageReturn then [13] else []
  let (line, numbered) :=
    if !s.inLine && style.number then (s.line + 1, numberText (s.line + 1)) else (s.line, [])
  let s := { s with line, inLine := true, empties := 0, carriageReturn := false }
  if style.nonPrinting then (s, before ++ numbered ++ shown style.tabs b)
  else if b = 9 && style.tabs then (s, before ++ numbered ++ [94, 73])
  else if b = 13 && style.ends then
    match next with
    | none => ({ s with carriageReturn := true }, before ++ numbered)
    | some 10 => (s, before ++ numbered ++ [94, 77])
    | some _ => (s, before ++ numbered ++ [13])
  else (s, before ++ numbered ++ [b])

/-- Show a chunk; the output is collected with the latest first. -/
def showChunk (style : Style) : State → Bytes → List Bytes → State × List Bytes
  | s, [], out => (s, out)
  | s, b :: rest, out =>
    let (s, data) := if b = 10 then endLine style s else inside style s b rest.head?
    showChunk style s rest (data :: out)

/-- Write to the output at once. -/
def write (data : Bytes) : Act Unit := do
  match ← Act.putNow data with
  | .ok () => return ()
  | .error e => Act.fail ("write error: " ++ e.text) 1

/-- Copy a source to its end. -/
def copy (style : Style) (source : Source) : Nat → State → Act (Except Errno Unit × State)
  | 0, s => return (.ok (), s)
  | fuel + 1, s => do
    match ← Act.call (.read source Act.readSize) with
    | .error e => return (.error e, s)
    | .ok [] => return (.ok (), s)
    | .ok data =>
      let (s, out) := if style = {} then (s, [data]) else showChunk style s data []
      write out.reverse.flatten
      copy style source fuel s

/-- Whether an input is the file that the output goes to, with bytes left to read. -/
def isOutput (source : Source) : Act Bool := do
  match source, ← Act.sourceInfo source, ← Act.sinkInfo (← read).stdout with
  | .file h, some input, some output =>
    match input.kind with
    | .file _ => return input.node = output.node && (← Act.call (.position h)) < input.size
    | _ => return false
  | _, _, _ => return false

/-- Copy what operands name. Gives whether all went well. -/
def copyAll (style : Style) : List Raw → State → Act (State × Bool)
  | [], s => return (s, true)
  | operand :: rest, s => do
    let failed := fun (text : Raw) (s : State) => do
      Act.complain text
      let (s, _) ← copyAll style rest s
      return (s, false)
    match ← Act.openInput operand with
    | .error e => failed (plainFailure operand e) s
    | .ok source =>
      if ← isOutput source then failed (Quote.ifNeeded operand ++ ": input file is output file") s
      else
        match ← copy style source manyRounds s with
        | (.ok (), s) => copyAll style rest s
        | (.error e, s) => failed (plainFailure operand e) s

/-- The options of the program. -/
def options : List OptionSpec :=
  [ ⟨"b", ["number-nonblank"], .flag⟩, ⟨"n", ["number"], .flag⟩, ⟨"s", ["squeeze-blank"], .flag⟩,
    ⟨"v", ["show-nonprinting"], .flag⟩, ⟨"E", ["show-ends"], .flag⟩, ⟨"T", ["show-tabs"], .flag⟩,
    ⟨"A", ["show-all"], .flag⟩, ⟨"e", [], .flag⟩, ⟨"t", [], .flag⟩, ⟨"u", [], .flag⟩ ]

/-- Copy inputs to the output. -/
def cat : Act Nat := do
  let a ← Act.arguments options
  let style ← Act.withOptions a ({} : Style) 1 fun style key _ =>
    return match key with
      | "b" => { style with number := true, nonBlank := true }
      | "n" => { style with number := true }
      | "s" => { style with squeeze := true }
      | "v" => { style with nonPrinting := true }
      | "E" => { style with ends := true }
      | "T" => { style with tabs := true }
      | "A" => { style with nonPrinting := true, ends := true, tabs := true }
      | "e" => { style with nonPrinting := true, ends := true }
      | "t" => { style with nonPrinting := true, tabs := true }
      | _ => style
  if (← read).stdout = .closed then Act.fail ("standard output: " ++ Errno.badDescriptor.text) 1
  let operands := if a.operands.isEmpty then ["-"] else a.operands
  let (s, good) ← copyAll style operands {}
  if s.carriageReturn then write [13]
  if operands.contains "-" then Act.closeInput "closing standard input"
  return if good then 0 else 1

end Cat

end Conch
