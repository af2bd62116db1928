-- SUMMARY: What programs do: reading, writing, complaining and ending.
import Conch.Program

/-!
# Acts of programs

A program makes calls on the world and may end at any point. What it writes to
its output is collected in a buffer, which is written out when it is full and when
the program ends; diagnostics are written at once. Writing into a pipe that nobody
reads kills a program, unless it ignores the signal for that; any other failure to
write is told at the end.
-/

namespace Conch

/-- What a program has put into its output buffer, the latest first. -/
structure Buffer where
  chunks : List Bytes := []
  size : Nat := 0
  /-- Whether output was refused before. -/
  refused : Bool := false
  /-- Whether a diagnostic was refused. -/
  unheard : Bool := false
  /-- Whether an answer could not be read. -/
  unanswered : Bool := false

/-- The content of a buffer. -/
def Buffer.content (b : Buffer) : Bytes := b.chunks.reverse.flatten

/-- What a program does. -/
abbrev Act := ReaderT Invocation (ExceptT Ending (StateT Buffer Job))

/-- The signal for writing into a pipe that nobody reads. -/
def pipeSignal : Nat := 13

/-- A number of rounds that no program comes near. -/
def manyRounds : Nat := 1000000000000000

namespace Act

/-- Make a call on the world. -/
def call (c : Call) : Act c.Reply :=
  liftM (Job.call c)

/-- End with a code. -/
def stop {α : Type} (code : Nat) : Act α :=
  throw (.exited code)

/-! ## Writing -/

/-- Write to a sink at once. A pipe that nobody reads ends the program, unless it ignores that. -/
def writeNow (sink : Sink) (data : Bytes) : Act (Except Errno Unit) := do
  if data.isEmpty then return .ok ()
  match ← call (.write sink data) with
  | .error .brokenPipe =>
    if (← read).ignored.contains pipeSignal then return .error .brokenPipe
    else throw (.killed pipeSignal)
  | reply => return reply

/-- Write text as it is to the diagnostics. -/
def putError (text : Raw) : Act Unit := do
  match ← writeNow (← read).stderr (Raw.bytes text) with
  | .ok () => return ()
  | .error _ => modify fun b => { b with unheard := true }

/-- How much a buffer holds. -/
def bufferSize : Nat := 4096

/-- Write out what is in the buffer. -/
def flush : Act (Except Errno Unit) := do
  let b ← get
  set { b with chunks := [], size := 0 }
  match ← writeNow (← read).stdout b.content with
  | .ok () => return .ok ()
  | .error e =>
    modify fun b => { b with refused := true }
    return .error e

/-- Write a diagnostic line after the program's name, whatever is still in the buffer. -/
def mention (text : Raw) : Act Unit := do
  putError ((← read).name ++ ": " ++ text ++ "\n")

/-- Write a diagnostic line after the program's name and after all output so far. -/
def complain (text : Raw) : Act Unit := do
  let _ ← flush
  mention text

/-- Tell of trouble and end. -/
def fail {α : Type} (text : Raw) (code : Nat) : Act α := do
  complain text
  stop code

/-- Tell that the program was used wrongly, where to read how it is used, and end. -/
def misused {α : Type} (text : Raw) (code : Nat) : Act α := do
  complain text
  putError ("Try '" ++ (← read).name ++ " --help' for more information.\n")
  stop code

/-- Drop what is in the buffer, so that nothing is told of it in the end. -/
def drop : Act Unit :=
  modify fun b => { b with chunks := [], size := 0, refused := false }

/-- Write to the output through the buffer. Whole buffers are written out; what is refused stays,
    so that the end of the program meets it again. -/
def tryPut (data : Bytes) : Act (Except Errno Unit) := do
  if data.isEmpty then return .ok ()
  let b ← get
  let size := b.size + data.length
  let b : Buffer := { b with chunks := data :: b.chunks, size }
  if size ≤ bufferSize then
    set b
    return .ok ()
  else
    let all := b.content
    let whole := size - size % bufferSize
    let rest := all.drop whole
    match ← writeNow (← read).stdout (all.take whole) with
    | .ok () =>
      set ({ b with chunks := [rest], size := rest.length } : Buffer)
      return .ok ()
    | .error e =>
      set ({ b with chunks := [all.take 1], size := 1 } : Buffer)
      return .error e

/-- Write to the output through the buffer, and leave it to the end to tell what was refused. -/
def put (data : Bytes) : Act Unit := do
  let _ ← tryPut data

/-- Write to the output through the buffer. What is refused ends the program at once. -/
def putOrFail (data : Bytes) : Act Unit := do
  match ← tryPut data with
  | .ok () => return ()
  | .error e =>
    drop
    mention ("write error: " ++ e.text)
    stop 1

/-- Write raw text to the output. -/
def putText (text : Raw) : Act Unit :=
  put (Raw.bytes text)

/-- Write to the output past the buffer. -/
def putNow (data : Bytes) : Act (Except Errno Unit) := do
  match ← flush with
  | .ok () => writeNow (← read).stdout data
  | .error e => return .error e

/-- How a program whose output cannot be written out at its end tells so and ends. The cause is known
    only if the last of the output was refused. -/
structure Closing where
  message : Option Errno → Raw := fun cause =>
    match cause with
    | some e => "write error: " ++ e.text
    | none => "write error"
  code : Nat := 1
  /-- Whether a diagnostic that was refused counts as a failure. -/
  isHeard : Bool := true

/-- Tell that the input cannot be closed, if it never was open, and end. -/
def closeInput (what : Raw) : Act Unit := do
  if (← read).stdin = .closed then fail (what ++ ": " ++ Errno.badDescriptor.text) 1

/-- A program that does something and ends with the code it gives. -/
def start (act : Act Nat) (closing : Closing) (i : Invocation) : Job Ending := do
  let finish : Ending → Act Ending := fun ending => do
    match ending with
    | .killed _ => return ending
    | .exited _ =>
      let i ← read
      let cause := if i.stdout = .closed then some Errno.badDescriptor else none
      let unanswered := (← get).unanswered
      if unanswered then
        complain ("error closing file" ++ if i.stdin = .closed then ": " ++ Errno.badDescriptor.text else "")
      let last ← flush
      match last, (← get).refused with
      | .ok (), false =>
        let isUnheard := closing.isHeard && (← get).unheard
        return if unanswered || isUnheard then .exited closing.code else ending
      | .ok (), true =>
        mention (closing.message cause)
        return .exited closing.code
      | .error e, _ =>
        mention (closing.message (some e))
        return .exited closing.code
  let whole : Act Ending := do
    let ending ← tryCatch (do return .exited (← act)) (fun ending => pure ending)
    finish ending
  match (← whole i {}).1 with
  | .ok ending => return ending
  | .error ending => return ending

/-! ## Reading -/

/-- How many bytes are read at once. -/
def readSize : Nat := 65536

/-- The open stream that a path stands for, if it names one by number. -/
def streamNumber? (path : Raw) : Option Nat :=
  match path with
  | "/dev/stdin" => some 0
  | "/dev/stdout" => some 1
  | "/dev/stderr" => some 2
  | _ =>
    let number := fun (cs : List Char) =>
      match cs with
      | [c] => if c.isDigit then some (c.toNat - 48) else none
      | _ => none
    if path.startsWith "/dev/fd/" then number (path.toList.drop 8)
    else if path.startsWith "/proc/self/fd/" then number (path.toList.drop 14)
    else none

/-- The open stream with a number. -/
def channel? (i : Invocation) (n : Nat) : Option Channel :=
  match n with
  | 0 => some { input := i.stdin }
  | 1 => some { output := i.stdout }
  | 2 => some { output := i.stderr }
  | n => i.others.lookup n

/-- Open a path for reading. Paths that name an open stream lead to that. -/
def openPath (path : Raw) : Act (Except Errno Source) := do
  let i ← read
  match streamNumber? path with
  | some n =>
    match channel? i n with
    | some { input := .file h, .. } => return (← call (.reopen h .read)).map Source.file
    | some { input := .closed, output := .closed } => return .error .noEntry
    | some { input, .. } => return .ok input
    | none => return .error .noEntry
  | none => return (← call (.openFile i.directory (Raw.decode path) .read)).map Source.file

/-- The source that an operand names; a dash is the standard input. -/
def openInput (operand : Raw) : Act (Except Errno Source) := do
  if operand = "-" then return .ok (← read).stdin else openPath operand

/-- Open a path for writing. Paths that name an open stream lead to that. -/
def openOutput (path : Raw) (mode : FileSystem.Mode) : Act (Except Errno Sink) := do
  let i ← read
  match streamNumber? path with
  | some n =>
    match channel? i n with
    | some { output := .file h, .. } => return (← call (.reopen h mode)).map Sink.file
    | some { output := .closed, .. } => return .error .noEntry
    | some { output, .. } => return .ok output
    | none => return .error .noEntry
  | none => return (← call (.openFile i.directory (Raw.decode path) mode)).map Sink.file

/-- Read chunks until the end and put them together, the latest first. -/
def readChunks (source : Source) : Nat → List Bytes → Act (Except Errno (List Bytes))
  | 0, chunks => return .ok chunks
  | fuel + 1, chunks => do
    match ← call (.read source readSize) with
    | .error e => return .error e
    | .ok data => if data.isEmpty then return .ok chunks else readChunks source fuel (data :: chunks)

/-- Read a source to its end. -/
def readAll (source : Source) : Act (Except Errno Bytes) := do
  match ← readChunks source manyRounds [] with
  | .error e => return .error e
  | .ok chunks => return .ok chunks.reverse.flatten

/-- Read all of what an operand names. -/
def readOperand (operand : Raw) : Act (Except Errno Bytes) := do
  match ← openInput operand with
  | .error e => return .error e
  | .ok source => readAll source

/-- Give back bytes that were read from a stored file and not used, so that others can read them. -/
def giveBack (source : Source) (count : Nat) : Act Unit := do
  match source with
  | .file h => let _ ← call (.goBack h count)
  | _ => return ()

/-- What is known about the file that a source reads from. -/
def sourceInfo (source : Source) : Act (Option FileInfo) := do
  match source with
  | .file h => call (.infoOf h)
  | _ => return none

/-- What is known about the file that a sink writes to. -/
def sinkInfo (sink : Sink) : Act (Option FileInfo) := do
  match sink with
  | .file h => call (.infoOf h)
  | _ => return none

/-- What is known about what a path leads to. -/
def info (path : Raw) (followLast : Bool) : Act (Except Errno FileInfo) := do
  call (.info (← read).directory (Raw.decode path) followLast)

/-- A change of the files, with paths seen from the program's directory. -/
def change (what : FileSystem.Change) : Act (Except Errno Unit) := do
  call (.change (← read).directory what)

end Act

end Conch
