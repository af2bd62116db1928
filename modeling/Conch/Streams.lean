-- SUMMARY: The standard streams of one stage: files opened on first use and owned until closed.
import Conch.Bytes
import Conch.Command
import Conch.Context
import Conch.Fault
import Conch.System.Job

/-!
# Streams of a stage

A stage's redirection files are opened when they are first needed, each at most
once, and all that were opened are closed together. A stream without a file is
the interpreter's own, except that inside a pipeline the output of a built-in
command goes to a pipe.

If the file for diagnostics cannot be opened, that is told once on the console
and diagnostics go to the console from then on.
-/

namespace Conch

/-- The streams of one stage. -/
structure Streams where
  /-- The directory that file names are relative to. -/
  directory : Path
  redirects : Redirects
  /-- Whether output without a file goes to a pipe. -/
  toPipe : Bool := false
  stdin : Option Handle := none
  /-- What was read from the input ahead of what was asked for. -/
  ahead : Bytes := []
  stdout : Option Handle := none
  stderr : Option Handle := none
  /-- What files have refused to take and is to be written before anything else, by file. -/
  unwritten : List (Handle × Bytes) := []
  /-- Whether opening the file for diagnostics has failed. -/
  stderrFailed : Bool := false
  /-- The files that were opened and not yet closed, the latest first. -/
  owned : List Handle := []
  deriving DecidableEq, Repr

/-- The streams of a stage before anything is opened. -/
def Streams.ofStage (s : Stage) (directory : Path) (toPipe : Bool) : Streams :=
  { directory, redirects := s.redirects.getD {}, toPipe }

/-- What a stage does with its streams: it makes calls and may meet a fault. -/
abbrev StageM := ExceptT Fault (StateT Streams Job)

namespace StageM

/-- Make a call on the world. -/
def call (c : Call) : StageM c.Reply :=
  liftM (Job.call c)

/-- The fault as a value, if the stage meets one. -/
def attempt {α : Type} (x : StageM α) : StageM (Except Fault α) :=
  fun streams => do
    let (result, streams) ← x streams
    return (.ok result, streams)

end StageM

namespace Streams

open StageM

/-! ## Opening -/

/-- Open a file for this stage and own it. -/
def openOwned (name : String) (mode : FileSystem.Mode) : StageM Handle := do
  let streams ← get
  let path := ((streams.directory.join (Path.ofString name)).normalize).toString
  if hasNul path then throw .nul
  if let .ok .dir ← call (.stat FileSystem.root path true) then throw (.system .isDirectory path)
  match ← call (.openFile FileSystem.root path mode) with
  | .error cause => throw (.system cause path)
  | .ok h =>
    if mode = .append then
      if let .error cause ← call (.seekEnd h) then
        call (.close h)
        throw (.system cause none)
    set { streams with owned := h :: streams.owned }
    return h

/-- The `<` file, opened to be read. -/
def stdinHandle : StageM (Option Handle) := do
  let streams ← get
  match streams.redirects.stdin, streams.stdin with
  | none, _ => return none
  | some _, some h => return some h
  | some name, none =>
    let h ← openOwned name .read
    modify fun streams => { streams with stdin := some h }
    return some h

/-- The `>` or `>>` file, opened to be written. -/
def stdoutHandle : StageM (Option Handle) := do
  let streams ← get
  match streams.redirects.stdout, streams.stdout with
  | none, _ => return none
  | some _, some h => return some h
  | some name, none =>
    let h ← openOwned name (if streams.redirects.append then .append else .truncate)
    modify fun streams => { streams with stdout := some h }
    return some h

/-- How many bytes a file buffers. -/
def bufferSize : Nat := 4096

/-- Write to a sink at once. -/
def writeNow (sink : Sink) (data : Bytes) : StageM Unit := do
  match ← call (.write sink data) with
  | .ok () => return ()
  | .error .badDescriptor => throw .writeClosed
  | .error cause => throw (.system cause none)

/-- Set what a file has refused to take. -/
def setUnwritten (h : Handle) (data : Bytes) : StageM Unit :=
  modify fun streams =>
    { streams with unwritten := (h, data) :: streams.unwritten.filter (·.1 ≠ h) }

/-- Write to a file through its buffer. What the file refuses stays in the buffer and is tried
    again first with every later write, unless it is too large for the buffer. -/
def writeFile (h : Handle) (data : Bytes) : StageM Unit := do
  writeNow (.file h) []
  let waiting := ((← get).unwritten.lookup h).getD []
  if waiting.length + data.length ≤ bufferSize then
    setUnwritten h (waiting ++ data)
    writeNow (.file h) (waiting ++ data)
    setUnwritten h []
  else
    writeNow (.file h) waiting
    setUnwritten h []
    writeNow (.file h) data

/-- Write to a sink. -/
def writeTo (sink : Sink) (data : Bytes) : StageM Unit :=
  match sink with
  | .file h => writeFile h data
  | sink => writeNow sink data

/-- Write one line to a sink. -/
def lineTo (sink : Sink) (text : String) : StageM Unit :=
  writeTo sink (utf8Line text)

/-- The `2>` file, opened to be written. If that fails, the console takes its place for good. -/
def stderrHandle : StageM (Option Handle) := do
  let streams ← get
  match streams.redirects.stderr, streams.stderr with
  | none, _ => return none
  | some name, opened =>
    if streams.stderrFailed then return none
    match opened with
    | some h => return some h
    | none =>
      match ← attempt (openOwned name .truncate) with
      | .ok h =>
        modify fun streams => { streams with stderr := some h }
        return some h
      | .error fault =>
        modify fun streams => { streams with stderrFailed := true }
        lineTo .err (fault.about name)
        return none

/-! ## Using -/

/-- Read up to a number of bytes from an open input, and keep what is read ahead. Whole buffers
    are read at once and only the rest through the buffer. -/
def readInput (h : Handle) (limit : Nat) : StageM Bytes := do
  let _ ← readNow h 0
  let ahead := (← get).ahead
  if limit ≤ ahead.length then
    modify fun streams => { streams with ahead := ahead.drop limit }
    return ahead.take limit
  else
    modify fun streams => { streams with ahead := [] }
    let wanted := limit - ahead.length
    let whole := wanted - wanted % bufferSize
    let direct ← if whole = 0 then pure [] else readNow h whole
    if direct.length < whole || wanted = whole then return ahead ++ direct
    let buffered ← readNow h bufferSize
    modify fun streams => { streams with ahead := buffered.drop (wanted - whole) }
    return ahead ++ direct ++ buffered.take (wanted - whole)
where
  /-- Read from an open file at once. -/
  readNow (h : Handle) (limit : Nat) : StageM Bytes := do
    match ← call (.read (.file h) limit) with
    | .ok data => return data
    | .error .badDescriptor => throw .readClosed
    | .error cause => throw (.system cause none)

/-- More bytes than any file holds. -/
def everything : Nat := 1000000000000000000

/-- Read all that is left of an open input. -/
def readRest (h : Handle) : StageM Bytes := do
  let ahead := (← get).ahead
  let rest ← readInput.readNow h everything
  modify fun streams => { streams with ahead := [] }
  return ahead ++ rest

/-- Write to the stage's output. -/
def write (data : Bytes) : StageM Unit := do
  match ← stdoutHandle with
  | some h => writeTo (.file h) data
  | none =>
    let streams ← get
    writeTo (if streams.toPipe then .pipe else .out) data

/-- Write one diagnostic line. -/
def error (text : String) : StageM Unit := do
  match ← stderrHandle with
  | some h => lineTo (.file h) text
  | none => lineTo .err text

/-- Close everything that was opened. -/
def close : StageM Unit := do
  let streams ← get
  streams.owned.forM fun h => call (.close h)
  set { streams with owned := [] }

end Streams

/-- Run what a stage does and close its files at the end, whatever happens. -/
def StageM.closing {α : Type} (x : StageM α) (streams : Streams) : Job (Except Fault α) := do
  let (result, streams) ← x streams
  let _ ← Streams.close streams
  return result

end Conch
