-- SUMMARY: Recorded sessions: steps on one session, and what each of them shows and changes.
import Conch.Command.Draft
import Conch.Repl
import Conch.Session.Machine

/-!
# Recorded sessions

A session is a context and a world. A step runs a line or a command, asks what a
name means, runs the interpreter as a program, or works the streams of a stage by
hand. Its record holds what went to the console, the session's directory, and how
the files under a directory differ from before.
-/

namespace Conch

/-! ## Files under a directory -/

/-- What stands under a path. -/
inductive Entry where
  | file (content : Bytes)
  | dir
  | link (target : String)
  deriving DecidableEq, Repr

/-- All that stands under a directory, by path from there, each directory before what is in it.
    `fuel` bounds the depth. -/
def FileSystem.entriesUnder (fs : FileSystem) : Nat → String → Ino → List (String × Entry)
  | 0, _, _ => []
  | fuel + 1, start, dir =>
    ((fs.entries? dir).getD []).flatMap fun (name, i) =>
      let path := start ++ name
      match fs.node? i with
      | some (.file content _) => [(path, .file content)]
      | some (.link target) => [(path, .link target)]
      | some (.dir _ _) => (path, .dir) :: entriesUnder fs fuel (path ++ "/") i
      | _ => [(path, .file [])]

/-- All that stands under the directory at a path. -/
def FileSystem.snapshot (fs : FileSystem) (path : String) : List (String × Entry) :=
  match fs.find root path true with
  | .ok dir => fs.entriesUnder fs.nodes.size "" dir
  | .error _ => []

/-- How one snapshot differs from an earlier one: what is new or different, and what is gone. -/
def changesBetween (before after : List (String × Entry)) : List (String × Option Entry) :=
  (after.filterMap fun (path, entry) =>
    if before.lookup path = some entry then none else some (path, some entry)) ++
  (before.filterMap fun (path, _) =>
    if (after.lookup path).isSome then none else some (path, none))

/-! ## Working the streams of a stage -/

/-- What can be done with the streams of a stage. -/
inductive StreamOp where
  | stdin
  | stdout
  | stderr
  | write (text : String)
  | error (text : String)
  /-- Read up to a number of bytes; `-1` means everything. -/
  | read (limit : Int)
  | piped
  | redirectsStdout
  | close
  deriving DecidableEq, Repr

/-- What an operation on streams gives. -/
inductive StreamReply where
  | nothing
  | truth (value : Bool)
  | bytes (data : Bytes)
  | fault (f : Fault)
  /-- There is no stream to read from. -/
  | noInput
  deriving DecidableEq, Repr

/-- Do one operation on streams, apart from looking into the pipe. -/
def StreamOp.act : StreamOp → StageM StreamReply
  | .stdin => return .truth (← Streams.stdinHandle).isSome
  | .stdout => return .truth (← Streams.stdoutHandle).isSome
  | .stderr => return .truth (← Streams.stderrHandle).isSome
  | .write text => do
    Streams.write (utf8 text)
    return .nothing
  | .error text => do
    Streams.error text
    return .nothing
  | .read limit => do
    match ← Streams.stdinHandle with
    | none => return .noInput
    | some h =>
      if limit < -1 then throw .readLength
      else if limit = -1 then return .bytes (← Streams.readRest h)
      else return .bytes (← Streams.readInput h limit.toNat)
  | .redirectsStdout => return .truth (← get).redirects.stdout.isSome
  | .close => do
    Streams.close
    return .nothing
  | .piped => return .nothing

/-- Do one operation on streams. -/
def StreamOp.run (op : StreamOp) (streams : Streams) (w : World) : (StreamReply × Streams) × World :=
  if op = .piped then ((.bytes w.piped, streams), w)
  else
    match (op.act streams).run w with
    | ((.ok reply, streams), w) => ((reply, streams), w)
    | ((.error fault, streams), w) => ((.fault fault, streams), w)

/-- Do operations on streams one after the other, and close what is open at the end. -/
def StreamOp.runAll (streams : Streams) (w : World) : List StreamOp → List StreamReply × World
  | [] => ([], ((Streams.close streams).run w).2)
  | op :: rest =>
    let ((reply, streams), w) := op.run streams w
    let (replies, w) := runAll streams w rest
    (reply :: replies, w)

/-! ## Steps -/

/-- A step of a recorded session. -/
inductive Step where
  | run (line : String)
  | execute (draft : Draft)
  | resolve (name : String)
  | program (words : List String) (events : List Event)
  | streams (redirects : Redirects) (toPipe : Bool) (ops : List StreamOp)

/-- What a step gives. -/
inductive StepResult where
  | outcome (o : Outcome)
  | notBuilt (e : ConstructError)
  | resolution (name : String) (r : Resolution)
  | ended (e : ProgramEnd)
  | replies (rs : List StreamReply)

/-- What a step shows and changes. -/
structure Record where
  result : StepResult
  out : Bytes
  err : Bytes
  directory : Path
  changes : List (String × Option Entry)

/-- A session under way. -/
structure Session where
  context : Context
  world : World

namespace Session

/-- Take a step, without recording. -/
def act (programs : Programs) (s : Session) : Step → StepResult × Session
  | .run line =>
    let ((outcome, context), world) := Interpreter.runLine programs s.context line s.world
    (.outcome outcome, ⟨context, world⟩)
  | .execute draft =>
    match draft.build with
    | .error e => (.notBuilt e, s)
    | .ok (.other description) => (.notBuilt (.notAStage description), s)
    | .ok (.command c) =>
      let ((outcome, context), world) := Interpreter.execute programs s.context c s.world
      (.outcome outcome, ⟨context, world⟩)
  | .resolve name =>
    let (resolution, world) := (Lookup.find s.context name).run s.world
    (.resolution name resolution, { s with world })
  | .program words events =>
    let (ending, world) := Repl.run programs words events s.world
    (.ended ending, { s with world })
  | .streams redirects toPipe ops =>
    let (replies, world) :=
      StreamOp.runAll { directory := s.context.directory, redirects, toPipe } s.world ops
    (.replies replies, { s with world })

/-- Take a step and record it. `top` is the directory whose files are watched. -/
def step (programs : Programs) (top : String) (s : Session) (next : Step) : Record × Session :=
  let before := s.world.files.snapshot top
  let quiet := { s with world := { s.world with out := [], err := [], piped := [] } }
  let (result, s) := quiet.act programs next
  let record : Record :=
    { result
      out := s.world.out
      err := s.world.err
      directory := s.context.directory
      changes := changesBetween before (s.world.files.snapshot top) }
  (record, s)

/-- Take several steps and record them. -/
def steps (programs : Programs) (top : String) : Session → List Step → List Record
  | _, [] => []
  | s, next :: rest =>
    let (record, s) := s.step programs top next
    record :: steps programs top s rest

end Session

end Conch
