-- SUMMARY: The program sed, which edits lines by a script of commands.
import Conch.Program.Arguments
import Conch.Program.Edit.Reader
import Conch.Program.FileName
import Conch.Program.Filter

/-!
# Editing

Each line goes through all commands and is written at the end, unless a command
deletes it or the program was asked to be silent. A line can be held back for
later ones, and lines can be put together. A last line without an end is written
without one.
-/

namespace Conch

namespace Edit

/-- Tell of trouble, before the output that is still in the buffer, and end. That the output cannot be
    written is not told then. -/
def wrong {α : Type} (text : Raw) (code : Nat) : Act α := do
  Act.mention text
  let _ ← Act.flush
  Act.drop
  Act.stop code

/-! ## Substitution -/

/-- A capital letter. -/
def capital (b : UInt8) : UInt8 := if 97 ≤ b && b ≤ 122 then b - 32 else b

/-- A small letter. -/
def small (b : UInt8) : UInt8 := if 65 ≤ b && b ≤ 90 then b + 32 else b

/-- How case is being changed: for all that follows, and for the next byte. -/
structure Casing where
  all : CaseChange := .asIs
  next : CaseChange := .asIs

/-- Change the case of some bytes. -/
def Casing.apply (c : Casing) (data : Bytes) : Casing × Bytes :=
  let rest := fun (b : UInt8) => match c.all with
    | .upper => capital b
    | .lower => small b
    | _ => b
  match data with
  | [] => (c, [])
  | b :: bs =>
    let first := match c.next with
      | .upperNext => capital b
      | .lowerNext => small b
      | _ => rest b
    ({ c with next := .asIs }, first :: bs.map rest)

/-- The text that takes the place of a match. -/
def expand (s : Pattern.Subject) (f : Pattern.Found) (groups : Pattern.Groups) (list : List Part) : Bytes :=
  let (_, out) := list.foldl (fun (c, out) p =>
    let put := fun data =>
      let (c, data) := Casing.apply c data
      (c, data :: out)
    match p with
    | .bytes bs => put bs
    | .group 0 => put (s.slice f.start f.stop)
    | .group i =>
      match groups.lookup i with
      | some (start, stop) => put (s.slice start stop)
      | none => (c, out)
    | .case .upperNext => ({ c with next := .upperNext }, out)
    | .case .lowerNext => ({ c with next := .lowerNext }, out)
    | .case change => ({ c with all := change, next := .asIs }, out)) (({} : Casing), [])
  out.reverse.flatten

/-- Whether a text refers to groups. -/
def usesGroups (list : List Part) : Bool :=
  list.any fun p => match p with
    | .group (_ + 1) => true
    | _ => false

/-- Replace the matches from the `nth` on, or that one only. Gives the line in pieces, the latest
    first, and whether anything was replaced. `seen` counts the matches so far, and `edge` is where
    the last one ended. `fuel` bounds their number. -/
def replaceFrom (p : Pattern) (sub : Substitution) (s : Pattern.Subject) :
    Nat → Nat → Option Nat → Nat → List Bytes → Bool → List Bytes × Bool
  | 0, _, _, start, out, done => (s.slice start s.size :: out, done)
  | fuel + 1, seen, edge, start, out, done =>
    if s.size < start then (out, done)
    else
      match p.search s start with
      | none => (s.slice start s.size :: out, done)
      | some f =>
        let isEmpty := f.stop = f.start
        let isTouching := isEmpty && edge = some f.start
        let seen := if isTouching then seen else seen + 1
        let replaces := !isTouching && (seen = sub.nth || (sub.all && sub.nth ≤ seen))
        let groups :=
          if replaces && usesGroups sub.parts then (p.groupsOf? s f.start f.stop).getD [] else []
        let piece := if replaces then expand s f groups sub.parts else s.slice f.start f.stop
        let out := piece :: s.slice start f.start :: out
        let done := done || replaces
        if replaces && !sub.all then (s.slice f.stop s.size :: out, done)
        else if isEmpty then
          replaceFrom p sub s fuel seen none (f.stop + 1) (s.slice f.stop (f.stop + 1) :: out) done
        else replaceFrom p sub s fuel seen (some f.stop) f.stop out done

/-- Replace matches in a text. Gives whether anything was replaced. -/
def replace (e : Expression) (sub : Substitution) (text : Bytes) : Bytes × Bool :=
  let s : Pattern.Subject := { text := text.toArray, hasLines := e.hasLines }
  let (pieces, done) := replaceFrom e.pattern sub s (2 * s.size + 2) 0 none 0 [] false
  (pieces.reverse.flatten, done)

/-- A text as it is shown by the command that lists it, broken into lines of a width. -/
def listed (width : Nat) (eol : UInt8) (text : Bytes) : Bytes :=
  let shown : UInt8 → Bytes := fun b =>
    let escape := fun (c : Char) => Raw.bytes (String.ofList ['\\', c])
    match b.toNat with
    | 92 => escape '\\'
    | 7 => escape 'a'
    | 8 => escape 'b'
    | 12 => escape 'f'
    | 10 => escape 'n'
    | 13 => escape 'r'
    | 9 => escape 't'
    | 11 => escape 'v'
    | n => if 32 ≤ n && n < 127 then [b] else Raw.bytes (String.ofList ('\\' :: Quote.octal n))
  let (_, out) := text.foldl (fun ((column, out) : Nat × List Bytes) b =>
    let data := shown b
    if 1 < width && width - 1 < column + data.length then (data.length, data :: [92, eol] :: out)
    else (column + data.length, data :: out)) (0, [])
  out.reverse.flatten ++ [36, eol]

/-! ## The editor -/

/-- What is written after a line. -/
inductive Queued where
  | text (bs : Bytes)
  | file (path : String)
  | line (bs : Bytes)

/-- Where a range of lines stands. -/
inductive RangeState where
  /-- Not begun. -/
  | idle
  /-- Over. One that begins at a line number does not begin again. -/
  | closed
  /-- Open up to a line, or until the second address chooses a line. -/
  | opened (last : Option Nat)
  deriving DecidableEq, Repr

/-- An input being read. -/
structure OpenInput where
  source : Source
  name : Raw
  pending : Bytes := []
  atEnd : Bool := false
  isStdin : Bool := false

/-- How the program is asked to work. -/
structure Style where
  silent : Bool := false
  separate : Bool := false
  /-- Write back to the inputs, with a text for the names of backups. -/
  inPlace : Option Raw := none
  eol : UInt8 := 10
  width : Nat := 70
  extended : Bool := false
  posix : Bool := false

/-- Whether each input is edited by itself. -/
def Style.isSeparate (s : Style) : Bool := s.separate || s.inPlace.isSome

/-- The state of editing. -/
structure Editor where
  style : Style
  script : Script
  operands : List Raw
  input : Option OpenInput := none
  /-- The name of the input that was opened last. -/
  name : Raw := "-"
  space : Bytes := []
  /-- Whether the line has an end. -/
  ended : Bool := true
  held : Bytes := []
  /-- Whether the line that was held last has an end. -/
  heldEnded : Bool := true
  number : Nat := 0
  replaced : Bool := false
  queue : List Queued := []
  ranges : Array RangeState := #[]
  used : Option Expression := none
  /-- The files that are written to, with whether a line end is missing. -/
  files : Array (Sink × Bool) := #[]
  /-- A line end is missing in the output. -/
  missing : Bool := false
  /-- A line end is missing where a command wrote to the output by its name. -/
  missingByName : Bool := false
  /-- Files that are read line by line: all of each, and what is left. -/
  readers : List (String × Bytes × Bytes) := []
  /-- The file that takes the place of the input. -/
  output : Option Bytes := none
  status : Nat := 0

/-- A part of editing. -/
abbrev Editing := StateT Editor Act

/-- Do something as the program. -/
def act {α : Type} (a : Act α) : Editing α := liftM a

/-- Tell that pieces of output could not be written, and end. -/
def unwritten {α : Type} (count : Nat) (name : Raw) (cause : Errno) : Act α := do
  Act.drop
  wrong ("couldn't write " ++ toString count ++ (if count = 1 then " item" else " items") ++ " to " ++
    name ++ ": " ++ cause.text) 4

/-- Write pieces to the output one after the other. -/
def putPieces : List Bytes → Act Unit
  | [] => return ()
  | piece :: rest => do
    match ← Act.tryPut piece with
    | .ok () => putPieces rest
    | .error e => unwritten piece.length "stdout" e

/-- Write to the output, with a line end first if one is missing. -/
def put (data : Bytes) (endsLine : Bool) : Editing Unit := do
  let e ← get
  let before := if e.missing then [e.style.eol] else []
  let after := if endsLine then [e.style.eol] else []
  set { e with missing := !endsLine }
  match e.output with
  | some out => modify fun e => { e with output := some (out ++ before ++ data ++ after) }
  | none => act (putPieces [before, data, after])

/-- Write bytes that need no line end. -/
def putRaw (data : Bytes) : Editing Unit := do
  let e ← get
  let before := if e.missing then [e.style.eol] else []
  set { e with missing := false }
  match e.output with
  | some out => modify fun e => { e with output := some (out ++ before ++ data) }
  | none => act (putPieces [before, data])

/-- Write to a target. -/
def putTo (t : Target) (data : Bytes) (endsLine : Bool) : Editing Unit := do
  match t with
  | .stdout =>
    let e ← get
    set { e with missingByName := !endsLine }
    act (putPieces [if e.missingByName then [e.style.eol] else [], data,
      if endsLine then [e.style.eol] else []])
  | .stderr => act (Act.putError (Raw.ofBytes (data ++ if endsLine then [10] else [])))
  | .file i =>
    let e ← get
    match e.files[i]? with
    | none => return ()
    | some (sink, missing) =>
      let data := (if missing then [e.style.eol] else []) ++ data ++ (if endsLine then [e.style.eol] else [])
      set { e with files := e.files.setIfInBounds i (sink, !endsLine) }
      match ← act (Act.writeNow sink data) with
      | .ok () => return ()
      | .error cause =>
        act (unwritten data.length (Raw.encode (e.script.files.getD i "")) cause)

/-- Write the line as it is now. -/
def printSpace : Editing Unit := do
  let e ← get
  put e.space e.ended

/-- Write the text that a command puts in, whose last line ends as lines do here. -/
def putText (text : Bytes) : Editing Unit := do
  let eol := (← get).style.eol
  putRaw (match text.reverse with
    | 10 :: rest => (eol :: rest).reverse
    | _ => text)

/-- Write what is queued. -/
def dumpQueue : Editing Unit := do
  let queue := (← get).queue.reverse
  modify fun e => { e with queue := [] }
  for q in queue do
    match q with
    | .text bs | .line bs => putRaw bs
    | .file path =>
      let content ← if path = "/dev/stdin" then act (Act.readAll (← read).stdin)
        else act (Act.readOperand (Raw.encode path))
      match content with
      | .ok bs => putRaw bs
      | .error _ => putRaw []

/-! ## Input -/

/-- How much is read at once. -/
def chunk : Nat := 4096

/-- Put the edited text in the place of the input. -/
def replaceFile (name suffix : Raw) (content : Bytes) : Act Unit := do
  if !suffix.isEmpty then
    let base := FileName.last name
    let backup := if suffix.toList.contains '*' then suffix.replace "*" base else base ++ suffix
    let backup := if backup.toList.contains '/' then backup
      else if name.toList.contains '/' then FileName.parent name ++ "/" ++ backup else backup
    let _ ← Act.change (.rename (Raw.decode name) (Raw.decode backup) false)
  else
    let _ ← Act.change (.unlink (Raw.decode name))
  match ← Act.openOutput name .truncate with
  | .ok sink =>
    let _ ← Act.writeNow sink content
  | .error _ => return ()

/-- Close the current input. -/
def closeInput : Editing Unit := do
  let e ← get
  if let some i := e.input then
    if let some content := e.output then
      act (replaceFile i.name (e.style.inPlace.getD "") content)
      modify fun e => { e with output := none, missing := false }
  modify fun e => { e with input := none }

/-- Where the ranges of a script stand before the first line. Those from line zero on are open. -/
def startRanges (s : Script) : Array RangeState :=
  s.commands.map fun c =>
    match c.first with
    | some (.number 0) => .opened none
    | _ => .idle

/-- Open the next input that can be read, if there is one. -/
def openNext : Nat → Editing Bool
  | 0 => return false
  | fuel + 1 => do
    let e ← get
    match e.operands with
    | [] => return false
    | operand :: rest =>
      set { e with operands := rest }
      let isPlain := operand ≠ "-" || e.style.inPlace.isSome
      if e.style.inPlace.isSome then
        match ← act (Act.info operand true) with
        | .ok info =>
          match info.kind with
          | .file _ => pure ()
          | _ =>
            act (wrong ("couldn't edit " ++ operand ++ ": not a regular file") 4)
        | .error _ => pure ()
      match ← act (if isPlain then Act.openPath operand else Act.openInput operand) with
      | .error cause =>
        act (Act.mention ("can't read " ++ operand ++ ": " ++ cause.text))
        modify fun e => { e with status := 2 }
        openNext fuel
      | .ok source =>
        modify fun e =>
          { e with
            input := some { source, name := operand, isStdin := !isPlain }
            name := operand
            output := if e.style.inPlace.isSome then some [] else none }
        if e.style.isSeparate then
          modify fun e =>
            { e with
              number := 0, held := [], ranges := startRanges e.script
              readers := e.readers.map fun (path, all, _) => (path, all, all) }
        return true

/-- Read until the pending bytes hold a line end or the input ends. -/
def fillLine (name : Raw) (source : Source) (eol : UInt8) : Nat → List Bytes → Act (Bytes × Bool)
  | 0, chunks => return (chunks.reverse.flatten, true)
  | fuel + 1, chunks => do
    match ← Act.call (.read source chunk) with
    | .error e =>
      let shown := if name = "-" then "stdin" else name
      wrong ("read error on " ++ shown ++ ": " ++ e.text) 4
    | .ok data =>
      if data.isEmpty then return (chunks.reverse.flatten, true)
      else if data.contains eol then return ((data :: chunks).reverse.flatten, false)
      else fillLine name source eol fuel (data :: chunks)

/-- Make sure that bytes are pending, unless the current input is at its end. -/
def prefetch : Editing Unit := do
  let e ← get
  match e.input with
  | none => return ()
  | some i =>
    if i.pending.isEmpty && !i.atEnd then
      let (pending, atEnd) ← act (fillLine i.name i.source e.style.eol manyRounds [])
      set { e with input := some { i with pending, atEnd := atEnd } }

/-- Whether no other input has anything to read. Inputs that can be opened but not read count as
    empty. `fuel` bounds the inputs. -/
def isLastInput : Nat → Editing Bool
  | 0 => return true
  | fuel + 1 => do
    closeInput
    if !(← openNext manyRounds) then return true
    let e ← get
    match e.input with
    | none => return true
    | some i =>
      match ← act (Act.call (.read i.source chunk)) with
      | .ok (b :: bs) =>
        set { e with input := some { i with pending := b :: bs } }
        return false
      | _ => isLastInput fuel

/-- Whether the current line is the last one. -/
def isLast : Editing Bool := do
  prefetch
  let e ← get
  let isOver := match e.input with
    | none => true
    | some i => i.pending.isEmpty && i.atEnd
  if !isOver then return false
  else if e.style.isSeparate || e.operands.isEmpty then return true
  else isLastInput manyRounds

/-- The next line of the inputs, without its end, and whether it has one. `fuel` bounds the
    inputs. -/
def nextLine? : Nat → Editing (Option (Bytes × Bool))
  | 0 => return none
  | fuel + 1 => do
    if (← get).input.isNone then
      if !(← openNext manyRounds) then return none
    prefetch
    let e ← get
    match e.input with
    | none => return none
    | some i =>
      if i.pending.isEmpty then
        closeInput
        nextLine? fuel
      else
        let line := i.pending.takeWhile (· ≠ e.style.eol)
        let rest := i.pending.drop line.length
        match rest with
        | _ :: rest =>
          set { e with input := some { i with pending := rest } }
          return some (line, true)
        | [] =>
          if i.atEnd then
            set { e with input := some { i with pending := [] } }
            return some (line, false)
          else
            -- The rest of the line is still to come.
            let (more, atEnd) ← act (fillLine i.name i.source e.style.eol manyRounds [])
            set { e with input := some { i with pending := i.pending ++ more, atEnd } }
            nextLine? fuel

/-- Go on to the next line. Gives whether there is one. `glued` is the text before it. -/
def advance (glued : Bytes) : Editing Bool := do
  dumpQueue
  modify fun e => { e with replaced := false }
  match ← nextLine? manyRounds with
  | none => return false
  | some (line, ended) =>
    modify fun e => { e with space := glued ++ line, ended, number := e.number + 1 }
    return true

/-! ## Addresses -/

/-- The expression to use: the given one, or the one that was used last. -/
def current (e : Option Expression) : Editing Expression := do
  match e with
  | some e =>
    modify fun s => { s with used := some e }
    return e
  | none =>
    match (← get).used with
    | some e => return e
    | none => act (wrong "-e expression #1, char 0: no previous regular expression" 1)

/-- Whether an address chooses the current line. -/
def chooses (a : Address) : Editing Bool := do
  let e ← get
  match a with
  | .number n => return e.number = n
  | .every first step =>
    return first ≤ e.number && (e.number - first) % step = 0
  | .lastLine => isLast
  | .matching x =>
    let x ← current x
    return x.pattern.matchesIn { text := (← get).space.toArray, hasLines := x.hasLines }
  | .plus _ | .multiple _ => return false

/-- Set where the range of a command stands. -/
def setRange (place : Nat) (r : RangeState) : Editing Unit :=
  modify fun e => { e with ranges := e.ranges.setIfInBounds place r }

/-- Begin a range with the current line, and give whether the line belongs to it. A second address
    that is a number may be past already. -/
def openRange (place : Nat) (second : Address) (isFirstLine : Bool) : Editing Bool := do
  let n := (← get).number
  match second with
  | .number last =>
    setRange place (if n < last then .opened (some last) else .closed)
    return isFirstLine || n ≤ last
  | .plus k => setRange place (if 0 < k then .opened (some (n + k)) else .closed)
  | .multiple k => setRange place (if 0 < k then .opened (some ((n / k + 1) * k)) else .closed)
  | .lastLine => setRange place (if ← isLast then .closed else .opened none)
  | _ => setRange place (.opened none)
  return true

/-- Whether a range begins or goes on with the current line. A range that begins at a line number also
    begins at a later line, if it has not been looked at before. One that ends at a line number is over
    after that line; one of another length takes in the line that is found to be past its end. -/
def inRange (place : Nat) (first second : Address) : Editing Bool := do
  let e ← get
  let n := e.number
  match e.ranges.getD place .idle, first with
  | .opened (some last), _ =>
    if last ≤ n then setRange place .closed
    match second with
    | .number _ => return n ≤ last
    | _ => return true
  | .opened none, _ =>
    if ← chooses second then setRange place .closed
    return true
  | .closed, .number _ => return false
  | .idle, .number start => if start ≤ n then openRange place second (n = start) else return false
  | _, first => if ← chooses first then openRange place second true else return false

/-- Whether a command applies to the current line. -/
def applies (place : Nat) (c : Command) : Editing Bool := do
  let chosen ← match c.first, c.second with
    | none, _ => pure true
    | some a, none => chooses a
    | some a, some b => inRange place a b
  return chosen != c.negated

/-! ## Commands -/

/-- How going through the commands ends. -/
inductive Outcome where
  /-- The line is written and the next one is read. -/
  | done
  /-- The next line is read. -/
  | deleted
  /-- The commands begin again with what is left. -/
  | again
  | quit (code : Nat)
  | quitSilently (code : Nat)
  /-- There are no more lines. -/
  | exhausted

/-- What stands before the first line end. -/
def firstLine (eol : UInt8) (text : Bytes) : Bytes := text.takeWhile (· ≠ eol)

/-- The next line of a file that is read line by line. -/
def readLineOf (path : String) : Editing (Option Bytes) := do
  let e ← get
  let (all, rest) ← match e.readers.lookup path with
    | some content => pure content
    | none =>
      match ← act (Act.readOperand (Raw.encode path)) with
      | .ok content => pure (content, content)
      | .error _ => pure ([], [])
  let line := rest.take ((firstLine e.style.eol rest).length + 1)
  set { e with readers := (path, all, rest.drop line.length) :: e.readers.filter (·.1 ≠ path) }
  return if line.isEmpty then none else some line

/-- Do what a command does. Gives where to go on, or how it ends. -/
def perform (place : Nat) (c : Command) : Editing (Except Outcome Nat) := do
  let e ← get
  let onward : Editing (Except Outcome Nat) := return .ok (place + 1)
  match c.action with
  | .block _ | .nothing => onward
  | .append text =>
    set { e with queue := .text text :: e.queue }
    onward
  | .insert text =>
    putText text
    onward
  | .change text =>
    let isLastOfRange : Bool := match c.second with
      | some _ =>
        c.negated || match e.ranges.getD place .idle with
          | .opened _ => false
          | _ => true
      | none => true
    if isLastOfRange then putText text
    return .error .deleted
  | .jump when goal =>
    let jumps := match when with
      | .always => true
      | .replaced => e.replaced
      | .notReplaced => !e.replaced
    if when ≠ .always then set { e with replaced := false }
    return .ok (if jumps then goal else place + 1)
  | .delete => return .error .deleted
  | .deleteFirst =>
    if e.space.contains e.style.eol then
      set { e with space := e.space.drop ((firstLine e.style.eol e.space).length + 1) }
      return .error .again
    else return .error .deleted
  | .fileName =>
    putRaw (Raw.bytes e.name ++ [e.style.eol])
    onward
  | .get =>
    set { e with space := e.held, ended := e.heldEnded }
    onward
  | .getAppend =>
    set { e with space := e.space ++ [e.style.eol] ++ e.held, ended := e.heldEnded }
    onward
  | .hold =>
    set { e with held := e.space, heldEnded := e.ended }
    onward
  | .holdAppend =>
    set { e with held := e.held ++ [e.style.eol] ++ e.space, heldEnded := e.ended }
    onward
  | .exchange =>
    set { e with space := e.held, ended := e.heldEnded, held := e.space, heldEnded := e.ended }
    onward
  | .list width =>
    putRaw (listed (width.getD e.style.width) e.style.eol e.space)
    onward
  | .lineNumber =>
    putRaw (Raw.bytes (toString e.number) ++ [e.style.eol])
    onward
  | .next =>
    if ← isLast then
      return .error (if e.style.posix then .deleted else .exhausted)
    if !e.style.silent then printSpace
    if ← advance [] then onward else return .error .exhausted
  | .nextAppend =>
    if ← isLast then return .error (if e.style.posix then .deleted else .exhausted)
    if ← advance (e.space ++ [e.style.eol]) then onward else return .error .exhausted
  | .print =>
    printSpace
    onward
  | .printFirst =>
    put (firstLine e.style.eol e.space) (e.ended || e.space.contains e.style.eol)
    onward
  | .quit code => return .error (.quit code)
  | .quitSilently code => return .error (.quitSilently code)
  | .readFile path =>
    set { e with queue := .file path :: e.queue }
    onward
  | .readLine path =>
    if let some line ← readLineOf path then modify fun e => { e with queue := .line line :: e.queue }
    onward
  | .substitute sub =>
    let x ← current sub.expression
    let (text, done) := replace x sub e.space
    if done then
      modify fun e => { e with space := text, replaced := true }
      if sub.print then printSpace
      if let some t := sub.target then putTo t text e.ended
    onward
  | .write t =>
    putTo t e.space e.ended
    onward
  | .writeFirst t =>
    putTo t (firstLine e.style.eol e.space) (e.ended || e.space.contains e.style.eol)
    onward
  | .transliterate table =>
    set { e with space := e.space.map fun b => (table.lookup b).getD b }
    onward
  | .zap =>
    set { e with space := [] }
    onward

/-- Go through the commands from a place on. `fuel` bounds the steps. -/
def runFrom : Nat → Nat → Editing Outcome
  | 0, _ => return .done
  | fuel + 1, place => do
    let e ← get
    match e.script.commands[place]? with
    | none => return .done
    | some c =>
      if ← applies place c then
        match ← perform place c with
        | .ok place => runFrom fuel place
        | .error outcome => return outcome
      else
        match c.action with
        | .block after => runFrom fuel after
        | _ => runFrom fuel (place + 1)

/-- Give back what was read from the standard input and not used. -/
def release : Editing Unit := do
  if let some i := (← get).input then
    if i.isStdin then act (Act.giveBack i.source i.pending.length)
  closeInput

/-- Edit line after line. With `keep`, the commands begin again with the line at hand. -/
def cycles : Nat → Bool → Editing Nat
  | 0, _ => return 0
  | fuel + 1, keep => do
    let isThere ← if keep then do
        dumpQueue
        pure true
      else advance []
    if !isThere then return (← get).status
    let silent := (← get).style.silent
    match ← runFrom manyRounds 0 with
    | .done =>
      if !silent then printSpace
      cycles fuel false
    | .deleted => cycles fuel false
    | .again => cycles fuel true
    | .exhausted =>
      if !silent then printSpace
      dumpQueue
      -- Other inputs may follow when each is edited by itself.
      if (← get).operands.isEmpty then
        release
        return (← get).status
      else cycles fuel false
    | .quit code =>
      if !silent then printSpace
      putRaw []
      dumpQueue
      release
      let e ← get
      return if e.status = 0 then code else e.status
    | .quitSilently code =>
      release
      let e ← get
      return if e.status = 0 then code else e.status

/-! ## The program -/

/-- The options of the program. -/
def options : List OptionSpec :=
  [ ⟨"n", ["quiet", "silent"], .flag⟩, ⟨"e", ["expression"], .value⟩, ⟨"f", ["file"], .value⟩,
    ⟨"E", ["regexp-extended"], .flag⟩, ⟨"r", [], .flag⟩, ⟨"i", ["in-place"], .optional⟩,
    ⟨"s", ["separate"], .flag⟩, ⟨"u", ["unbuffered"], .flag⟩, ⟨"z", ["null-data", "zero-terminated"], .flag⟩,
    ⟨"l", ["line-length"], .value⟩, ⟨"b", ["binary"], .flag⟩, ⟨"posix", ["posix"], .flag⟩,
    ⟨"debug", ["debug"], .flag⟩, ⟨"follow-symlinks", ["follow-symlinks"], .flag⟩,
    ⟨"sandbox", ["sandbox"], .flag⟩ ]

/-- A part of a script: the text of an argument, or that of a file. -/
inductive ScriptPart where
  | argument (text : Raw)
  | file (name text : Raw)

/-- What the options ask for. -/
structure Plan where
  style : Style := {}
  parts : List ScriptPart := []

/-- Take an option. -/
def Plan.take (p : Plan) (key : String) (value : Raw) : Act Plan := do
  let change (s : Style) : Act Plan := return { p with style := s }
  let s := p.style
  match key with
  | "n" => change { s with silent := true }
  | "e" => return { p with parts := p.parts ++ [.argument value] }
  | "f" =>
    match ← Act.readOperand value with
    | .error e => wrong ("couldn't open file " ++ value ++ ": " ++ e.text) 1
    | .ok data => return { p with parts := p.parts ++ [.file value (Raw.dropLineEnd (Raw.ofBytes data))] }
  | "E" | "r" => change { s with extended := true }
  | "i" => change { s with inPlace := some value, separate := true }
  | "s" => change { s with separate := true }
  | "z" => change { s with eol := 0 }
  | "l" => change { s with width := Number.ofDigits (value.toList.takeWhile Char.isDigit) }
  | "posix" => change { s with posix := true }
  | _ => return p

/-- Put arguments together where a line goes on in the next one. -/
def joinParts : List ScriptPart → List ScriptPart
  | .argument a :: rest =>
    match joinParts rest with
    | .argument b :: rest =>
      if (a.toList.reverse.takeWhile (· = '\\')).length % 2 = 1 then .argument (a ++ "\n" ++ b) :: rest
      else .argument a :: .argument b :: rest
    | rest => .argument a :: rest
  | part :: rest => part :: joinParts rest
  | [] => []

/-- Open the files that a script writes to. -/
def openFiles : List String → Act (Array (Sink × Bool))
  | [] => return #[]
  | path :: rest => do
    match ← Act.openOutput (Raw.encode path) .truncate with
    | .error e => wrong ("couldn't open file " ++ Raw.encode path ++ ": " ++ e.text) 4
    | .ok sink => return #[(sink, false)] ++ (← openFiles rest)

/-- Tell what is wrong with a script, and end. The files that it named before are made all the same. -/
def wrongScript {α : Type} (e : ScriptError) : Act α := do
  let _ ← openFiles e.files
  if e.isBare then wrong e.reason 1
  else
    match e.origin with
    | .file name => wrong ("file " ++ name ++ " line " ++ toString e.line ++ ": " ++ e.reason) 1
    | .argument n =>
      wrong ("-e expression #" ++ toString n ++ ", char " ++ toString (e.place.getD 0) ++ ": " ++ e.reason) 1

/-- Read the parts of a script, after a number of arguments. -/
def readParts (style : ReadStyle) : List ScriptPart → Nat → Reading → Except ScriptError Script
  | [], _, r => finish r
  | .argument text :: rest, n, r => do
    readParts style rest (n + 1) (← readPart style r (.argument (n + 1)) text)
  | .file name text :: rest, n, r => do
    readParts style rest n (← readPart style r (.file name) text)

/-- How the program ends when its output cannot be written out. -/
def closing : Act.Closing where
  message := fun cause => "couldn't flush stdout: " ++ (cause.getD .noSpace).text
  code := 4
  isHeard := false

/-- Edit lines by a script. -/
def sed : Act Nat := do
  let a ← Act.arguments options
  let usage {α : Type} (code : Nat) : Act α := do
    Act.putError ("Usage: " ++ (← read).name ++ " [OPTION]... \x7bscript-only-if-no-other-script\x7d [input-file]...\n\n")
    Act.stop code
  let p ← Act.withOptions { a with fault := none } ({} : Plan) 1 Plan.take
  if let some e := a.fault then
    Act.mention e.message
    usage 1
  let (parts, operands) ← match p.parts, a.operands with
    | [], [] => usage 1
    | [], text :: operands => pure ([.argument text], operands)
    | parts, operands => pure (parts, operands)
  match readParts { extended := p.style.extended } (joinParts parts) 0 {} with
  | .error e => wrongScript e
  | .ok script =>
    let files ← openFiles script.files
    if p.style.inPlace.isSome && operands.isEmpty then wrong "no input files" 4
    let style := { p.style with silent := p.style.silent || script.silent }
    let start : Editor :=
      { style, script, files
        operands := if operands.isEmpty then ["-"] else operands
        ranges := startRanges script }
    let code := (← (cycles manyRounds false).run start).1
    if (← read).stdout = .closed then
      Act.drop
      wrong ("couldn't close stdout: " ++ Errno.badDescriptor.text) 4
    return code

end Edit

end Conch
