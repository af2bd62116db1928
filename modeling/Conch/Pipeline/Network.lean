-- SUMMARY: Running pipelines: stages, relays, bounded pipes and a pool of workers, and the moves they can make.
import Conch.Relay
import Conch.Stage

/-!
# Networks

A pipeline in progress is a network. Its stages are started from left to right.
A stage writes into the pipe at its output, a relay carries the bytes over to the
pipe at the next stage's input, and that stage reads them. Pipes hold a bounded
number of bytes, so a stage may have to wait for room or for bytes.

Programs are processes of their own. Relays and built-in stages are tasks of a
pool, and each needs a worker of the pool to move. The interpreter itself starts
the stages, waits for each of them in turn, then for the relays, and then leaves
the pool.

`Network.step` makes one move, and says when a move is not possible yet. In which
order moves are made is left open here; how many bytes a move transfers is part
of the move, and so is the size of the pipes that are made.
-/

namespace Conch

/-! ## Pipes -/

/-- A pipe with its two ends. It remembers what has passed through it. -/
structure Pipe where
  /-- How many bytes it holds. -/
  capacity : Nat
  /-- What was put in and not yet taken out. -/
  buffer : Bytes
  readerOpen : Bool
  writerOpen : Bool
  /-- All that was ever put in, chunk by chunk, the latest first. -/
  putChunks : List Bytes
  /-- All that was ever taken out, chunk by chunk, the latest first. -/
  takenChunks : List Bytes
  capacity_pos : 0 < capacity
  bounded : buffer.length ≤ capacity
  conserved : putChunks.reverse.flatten = takenChunks.reverse.flatten ++ buffer

/-- How many bytes are transferred when some number is wished for and at most another is
    possible: at least one, if one is possible. -/
def transfer (wish possible : Nat) : Nat :=
  min (max wish 1) possible

theorem transfer_le (wish possible : Nat) : transfer wish possible ≤ possible :=
  Nat.min_le_right _ _

theorem transfer_pos (wish : Nat) {possible : Nat} (h : 0 < possible) : 0 < transfer wish possible := by
  unfold transfer
  omega

namespace Pipe

/-- A new pipe that holds a number of bytes, and never less than one. -/
def ofSize (size : Nat) : Pipe where
  capacity := max size 1
  buffer := []
  readerOpen := true
  writerOpen := true
  putChunks := []
  takenChunks := []
  capacity_pos := by omega
  bounded := Nat.zero_le _
  conserved := rfl

/-- All that was ever put in. -/
def allPut (p : Pipe) : Bytes := p.putChunks.reverse.flatten

/-- All that was ever taken out. -/
def allTaken (p : Pipe) : Bytes := p.takenChunks.reverse.flatten

/-- Put bytes in for which there is room. -/
def put (p : Pipe) (data : Bytes) (room : p.buffer.length + data.length ≤ p.capacity) : Pipe :=
  { p with
    buffer := p.buffer ++ data
    putChunks := data :: p.putChunks
    bounded := by rwa [List.length_append]
    conserved := by simp [p.conserved] }

/-- Take up to a number of bytes out. -/
def take (p : Pipe) (n : Nat) : Bytes × Pipe :=
  (p.buffer.take n,
    { p with
      buffer := p.buffer.drop n
      takenChunks := p.buffer.take n :: p.takenChunks
      bounded := by
        rw [List.length_drop]
        exact Nat.le_trans (Nat.sub_le _ _) p.bounded
      conserved := by simp [p.conserved] })

/-- Close the end that is read from. -/
def closeReader (p : Pipe) : Pipe := { p with readerOpen := false }

/-- Close the end that is written to. -/
def closeWriter (p : Pipe) : Pipe := { p with writerOpen := false }

/-- Read up to a number of bytes. No bytes are the end of what was put in; there is no answer while
    there is nothing to read and more may come. -/
def read (p : Pipe) (wish limit : Nat) : Option (Except Errno Bytes × Pipe) :=
  if !p.readerOpen then some (.error .badDescriptor, p)
  else if limit = 0 then some (.ok [], p)
  else if p.buffer.isEmpty then
    if p.writerOpen then none else some (.ok [], p)
  else
    let (data, p) := p.take (transfer wish limit)
    some (.ok data, p)

/-- Write what there is room for, and give the rest. There is no answer while there is no room. -/
def write (p : Pipe) (wish : Nat) (data : Bytes) : Option (Except Errno Bytes × Pipe) :=
  if data.isEmpty then some (.ok [], p)
  else if !p.readerOpen then some (.error .brokenPipe, p)
  else if full : p.capacity ≤ p.buffer.length then none
  else
    let n := transfer wish (p.capacity - p.buffer.length)
    have room : p.buffer.length + (data.take n).length ≤ p.capacity := by
      have hn : n ≤ p.capacity - p.buffer.length := transfer_le _ _
      have hlength := List.length_take_le n data
      omega
    some (.ok (data.drop n), p.put (data.take n) room)

end Pipe

/-! ## Stages -/

/-- What a stage leaves behind. -/
structure StageEnd where
  result : Except Fault Nat
  /-- The files it opened, which are still to be closed. -/
  owned : List Handle

/-- What a stage is doing. -/
inductive Task where
  | running (job : Job StageEnd)
  | ended (e : StageEnd)

/-- What a stage was started as. -/
inductive Role where
  /-- A built-in command, which a worker of the pool runs. -/
  | builtin
  /-- A process. -/
  | process
  /-- Nothing: its command was not found or could not be run. -/
  | absent
  deriving DecidableEq, Repr

/-- A stage that was started, or that failed to start. -/
structure Member where
  role : Role
  task : Task
  /-- The pipe that feeds its input, if one does. -/
  input : Option Pipe := none
  /-- The pipe that takes its output, if one does. -/
  output : Option Pipe := none

namespace Member

/-- Go on with a job. -/
def goOn (m : Member) (job : Job StageEnd) : Member :=
  { m with task := .running job }

/-- The end of a stage closes its ends of the pipes. -/
def finish (m : Member) (e : StageEnd) : Member :=
  { m with
    task := .ended e
    input := m.input.map Pipe.closeReader
    output := m.output.map Pipe.closeWriter }

/-- One move of a stage. There is none after its end, none while it waits for bytes that may
    still come, and none while it waits for room. -/
def step (wish : Nat) (m : Member) (w : World) : Option (Member × World) :=
  match m.task with
  | .ended _ => none
  | .running (.done e) => some (m.finish e, w)
  | .running (.ask (.read .pipe limit) resume) =>
    match m.input with
    | none => some (m.goOn (resume (.ok [])), w)
    | some p =>
      match p.read wish limit with
      | none => none
      | some (reply, p) => some ({ m with input := some p }.goOn (resume reply), w)
  | .running (.ask (.write .pipe data) resume) =>
    match m.output with
    | none => some (m.goOn (resume (.error .brokenPipe)), w)
    | some p =>
      match p.write wish data with
      | none => none
      | some (.error cause, p) => some ({ m with output := some p }.goOn (resume (.error cause)), w)
      | some (.ok [], p) => some ({ m with output := some p }.goOn (resume (.ok ())), w)
      | some (.ok rest, p) => some ({ m with output := some p }.goOn (.ask (.write .pipe rest) resume), w)
  | .running (.ask (.hangUp .pipe) resume) =>
    some ({ m with input := m.input.map Pipe.closeReader }.goOn (resume ()), w)
  | .running (.ask call resume) =>
    let (reply, w) := w.perform call
    some (m.goOn (resume reply), w)

/-- Whether a stage has come to its end. -/
def isEnded (m : Member) : Bool :=
  match m.task with
  | .ended _ => true
  | .running _ => false

/-- All that a stage was given on its input. -/
def given (m : Member) : Bytes :=
  (m.input.map Pipe.allTaken).getD []

/-- All that a stage has written to the pipe at its output. -/
def written (m : Member) : Bytes :=
  (m.output.map Pipe.allPut).getD []

end Member

/-! ## Relays -/

/-- A relay at work between two stages. -/
structure Carrier where
  /-- What it has read and not yet passed on. -/
  carried : Bytes := []
  finished : Bool := false

/-- One move of a relay between the pipe it reads and the pipe it writes, either of which may be
    missing. It closes both when the first has ended, when nobody reads the second, or when one
    is missing. -/
def Carrier.step (wish : Nat) (c : Carrier) (source target : Option Pipe) :
    Option (Carrier × Option Pipe × Option Pipe) :=
  let finish := some
    ({ c with finished := true }, source.map Pipe.closeReader, target.map Pipe.closeWriter)
  if c.finished then none
  else
    match source, target with
    | some s, some t =>
      if c.carried.isEmpty then
        match s.read wish Relay.chunkSize with
        | none => none
        | some (.ok (b :: data), s) => some ({ c with carried := b :: data }, some s, some t)
        | some _ => finish
      else
        match t.write wish c.carried with
        | none => none
        | some (.ok rest, t) => some ({ c with carried := rest }, some s, some t)
        | some (.error _, _) => finish
    | _, _ => finish

/-! ## Networks -/

/-- A task of the pool: the built-in command that is stage `i`, or the relay from stage `i`. -/
inductive PoolTask where
  | stage (i : Nat)
  | relay (i : Nat)
  deriving DecidableEq, Repr

/-- What starting a stage comes to. A fault comes with the files that are left open. -/
abbrev Started := Except (Fault × List Handle) Member

/-- A pipeline in progress. Relay `i` joins stage `i` to stage `i + 1`. -/
structure Network where
  world : World
  /-- The stages that are still to be started. -/
  waiting : List Stage
  /-- What is left to do to start a stage that is about to be started. -/
  starting : Option (Job Started) := none
  members : List Member := []
  carriers : List Carrier := []
  /-- How many workers the pool has. -/
  workers : Nat
  /-- The tasks of the pool, in the order in which they came. -/
  tasks : List PoolTask := []
  /-- The statuses of the stages that were waited for, in order. -/
  statuses : List Nat := []
  /-- How many relays were waited for. -/
  relaysSeen : Nat := 0
  /-- A fault in starting a stage, after which no more are started. -/
  aborted : Option Fault := none
  /-- Files that a stage opened which could not be started because of that. -/
  leftover : List Handle := []
  /-- A fault of a stage that came out when it was waited for. -/
  fault : Option Fault := none
  /-- Whether the interpreter has left the pool. -/
  isOver : Bool := false

/-- What can happen next in a network. A transfer wishes for a number of bytes, and the pipes that
    are made for a stage, at its input and at its output, have certain sizes. -/
inductive Move where
  | start (inputSize outputSize : Nat)
  | stage (i : Nat) (wish : Nat)
  | relay (i : Nat) (wish : Nat)
  | wait
  deriving DecidableEq, Repr

namespace Network

/-- A pipeline before anything has happened. The pool has two workers for each stage. -/
def ofPipeline (p : Pipeline) (w : World) : Network :=
  { world := w, waiting := p.stages, workers := 2 * p.stages.length }

/-! ## Starting stages -/

/-- What a built-in command does as a stage: its session is a copy, so only its status counts. -/
def builtinJob (b : Builtin) (s : Stage) (ctx : Context) (isLast : Bool) : Job StageEnd := do
  let (result, streams) ← (b.run s.args ctx) (.ofStage s ctx.directory (!isLast))
  match result with
  | .error fault => return ⟨.error fault, streams.owned⟩
  | .ok (.status code, _) => return ⟨.ok code, streams.owned⟩
  | .ok (.exitRequest code, _) => return ⟨.ok code, streams.owned⟩

/-- What a program does as a stage. -/
def programJob (job : Job Ending) (owned : List Handle) : Job StageEnd := do
  let ending ← job
  return ⟨.ok ending.status, owned⟩

/-- A stage that never ran, with its status. -/
def absent (status : Nat) (owned : List Handle) : Member :=
  { role := .absent, task := .ended ⟨.ok status, owned⟩ }

/-- The pipe at the input of a process. Nothing feeds the first stage, so its pipe is closed at once. -/
def inputPipe (isFirst : Bool) (size : Nat) : Pipe :=
  if isFirst then (Pipe.ofSize size).closeWriter else .ofSize size

/-- Start the process of a stage, or tell why there is none and give the status. -/
def launchStage (programs : Programs) (ctx : Context) (isLast : Bool) (s : Stage)
    (path : Path) : StageM (Except Nat (Job Ending)) := do
  match ← Launch.launch programs ctx s path .pipe (if isLast then .out else .pipe) with
  | .error e =>
    Streams.error e.message
    return .error e.status
  | .ok job => return .ok job

/-- Start one stage, with pipes of the given sizes where no file is in their place. -/
def startStage (programs : Programs) (ctx : Context) (isFirst isLast : Bool)
    (inputSize outputSize : Nat) (s : Stage) : Job Started := do
  match ← Lookup.find ctx s.executable with
  | .builtin b =>
    return .ok
      { role := .builtin
        task := .running (builtinJob b s ctx isLast)
        output := if isLast then none else some (.ofSize outputSize) }
  | .notFound =>
    let (result, streams) ← Streams.error (Launch.notFoundLine s) (.ofStage s ctx.directory false)
    match result with
    | .error fault => return .error (fault, streams.owned)
    | .ok () => return .ok (absent Launch.notFound streams.owned)
  | .external path =>
    let (result, streams) ← launchStage programs ctx isLast s path (.ofStage s ctx.directory false)
    match result with
    | .error fault => return .error (fault, streams.owned)
    | .ok (.error status) => return .ok (absent status streams.owned)
    | .ok (.ok job) =>
      return .ok
        { role := .process
          task := .running (programJob job streams.owned)
          input := if s.stdin?.isSome then none else some (inputPipe isFirst inputSize)
          output := if isLast || s.stdout?.isSome then none else some (.ofSize outputSize) }

/-- Take in a stage that was started, and a relay to it from the one before. What needs a worker is
    handed to the pool. -/
def join (net : Network) (m : Member) : Network :=
  let i := net.members.length
  let builtin := if m.role = .builtin then [PoolTask.stage i] else []
  let relay := if i = 0 then [] else [PoolTask.relay (i - 1)]
  { net with
    starting := none
    members := net.members ++ [m]
    carriers := if i = 0 then net.carriers else net.carriers ++ [{}]
    tasks := net.tasks ++ builtin ++ relay }

/-- Begin to start the next stage, or go on with starting it. -/
def start (programs : Programs) (ctx : Context) (inputSize outputSize : Nat) (net : Network) :
    Option Network :=
  match net.starting with
  | some (.ask call resume) =>
    let (reply, world) := net.world.perform call
    some { net with world, starting := some (resume reply) }
  | some (.done (.error (fault, owned))) =>
    some { net with starting := none, aborted := some fault, leftover := owned }
  | some (.done (.ok m)) => some (net.join m)
  | none =>
    match net.aborted, net.waiting with
    | none, s :: waiting =>
      let job := startStage programs ctx net.members.isEmpty waiting.isEmpty inputSize outputSize s
      some { net with waiting, starting := some job }
    | _, _ => none

/-! ## The pool -/

/-- Whether a task of the pool has come to its end. -/
def isDone (net : Network) : PoolTask → Bool
  | .stage i => (net.members[i]?.map Member.isEnded).getD false
  | .relay i => (net.carriers[i]?.map Carrier.finished).getD false

/-- Whether a task has a worker. Workers take the tasks in the order in which they came, each the
    next one when it is done with one. -/
def hasWorker (net : Network) (t : PoolTask) : Bool :=
  net.tasks.contains t &&
    ((net.tasks.takeWhile (· ≠ t)).filter (!net.isDone ·)).length < net.workers

/-! ## Waiting -/

/-- Leave the pool, which is possible when all its tasks are done. -/
def leave (net : Network) : Option Network :=
  if !net.isOver && net.tasks.all net.isDone then some { net with isOver := true } else none

/-- Wait for one more stage, then for one more relay, then for the pool. A fault ends the waiting for
    stages and relays. -/
def wait (net : Network) : Option Network :=
  match net.aborted, net.fault with
  | none, none =>
    if !net.waiting.isEmpty || net.starting.isSome then none
    else
      match net.members[net.statuses.length]? with
      | some m =>
        match m.task with
        | .running _ => none
        | .ended ⟨.ok status, _⟩ => some { net with statuses := net.statuses ++ [status] }
        | .ended ⟨.error fault, _⟩ => some { net with fault := some fault }
      | none =>
        match net.carriers[net.relaysSeen]? with
        | some c => if c.finished then some { net with relaysSeen := net.relaysSeen + 1 } else none
        | none => net.leave
  | _, _ => net.leave

/-! ## Moves -/

/-- One move of a network. -/
def step (programs : Programs) (ctx : Context) (net : Network) : Move → Option Network
  | .start inputSize outputSize => net.start programs ctx inputSize outputSize
  | .stage i wish => do
    let m ← net.members[i]?
    if m.role = .builtin && !net.hasWorker (.stage i) then none
    else
      let (m, world) ← m.step wish net.world
      return { net with world, members := net.members.set i m }
  | .relay i wish => do
    let c ← net.carriers[i]?
    let before ← net.members[i]?
    let after ← net.members[i + 1]?
    if !net.hasWorker (.relay i) then none
    else
      let (c, source, target) ← c.step wish before.output after.input
      let members := (net.members.set i { before with output := source }).set (i + 1)
        { after with input := target }
      return { net with members, carriers := net.carriers.set i c }
  | .wait => net.wait

end Network

end Conch
