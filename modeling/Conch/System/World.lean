-- SUMMARY: The world that commands run in: files, open files, the console, and the calls on them.
import Conch.System.FileSystem

/-!
# The world

Besides the file system the world holds the files that are open, each with its
own position, and what has gone to the console. Everything that a command does
to the world is a `Call`, and every call has a reply.

A call never fails to return here: files and the console do not block. A pipe
does, so a run with several processes serves the calls on pipes itself; without
such a run a pipe takes everything and reads as ended. The pipes that processes
make for themselves take everything and give it back.
-/

namespace Conch

/-! ## Open files -/

/-- The number of an open file. Numbers are not used again. -/
abbrev Handle := Nat

/-- A file that was opened. Each opening has its own position. -/
structure OpenFile where
  node : Ino
  mode : FileSystem.Mode
  position : Nat := 0
  isOpen : Bool := true
  deriving DecidableEq, Repr

/-- Where a process reads from. -/
inductive Source where
  | file (h : Handle)
  /-- The pipe from the stage before. -/
  | pipe
  /-- A pipe that a process made, by its number. -/
  | joint (n : Nat)
  /-- At its end from the start. -/
  | empty
  | closed
  deriving DecidableEq, Repr

/-- Where a process writes to. -/
inductive Sink where
  | file (h : Handle)
  /-- The pipe to the stage after. -/
  | pipe
  /-- A pipe that a process made, by its number. -/
  | joint (n : Nat)
  | out
  | err
  | closed
  deriving DecidableEq, Repr

/-- All that commands can observe and change. -/
structure World where
  files : FileSystem
  opened : Array OpenFile := #[]
  /-- What went to the console's output. -/
  out : Bytes := []
  /-- What went to the console as diagnostics. -/
  err : Bytes := []
  /-- What went into a pipe that no run serves. -/
  piped : Bytes := []
  /-- The directory that the interpreter itself was started in. -/
  directory : Ino := FileSystem.root
  /-- The variables that every process starts with. -/
  environment : List (String × String) := []
  /-- What is in the pipes that processes have made, chunk by chunk, the latest first. -/
  joints : Array (List Bytes) := #[]

/-! ## Calls -/

/-- What a process asks of the world. Paths are seen from the directory `base`. -/
inductive Call where
  | read (source : Source) (limit : Nat)
  | write (sink : Sink) (data : Bytes)
  /-- Close a pipe that is read from. -/
  | hangUp (source : Source)
  | close (h : Handle)
  | openFile (base : Ino) (path : String) (mode : FileSystem.Mode)
  /-- Open the file of an open file once more, with a position of its own. -/
  | reopen (h : Handle) (mode : FileSystem.Mode)
  /-- Go to the end of an open file. -/
  | seekEnd (h : Handle)
  /-- Go back by a number of bytes. -/
  | goBack (h : Handle) (count : Nat)
  /-- The position in an open file. -/
  | position (h : Handle)
  /-- Make a pipe. -/
  | joint
  | stat (base : Ino) (path : String) (followLast : Bool)
  | info (base : Ino) (path : String) (followLast : Bool)
  | infoOf (h : Handle)
  /-- How many names a node has. -/
  | nameCount (node : Ino)
  | fetch (base : Ino) (path : String)
  | enter (base : Ino) (path : String)
  | change (base : Ino) (what : FileSystem.Change)
  | list (base : Ino) (path : String)
  | readLink (base : Ino) (path : String)
  | pathOf (dir : Ino)
  | environment
  | directory

/-- What the world replies to a call. -/
@[reducible] def Call.Reply : Call → Type
  | .read _ _ => Except Errno Bytes
  | .write _ _ => Except Errno Unit
  | .hangUp _ => Unit
  | .close _ => Unit
  | .openFile _ _ _ => Except Errno Handle
  | .reopen _ _ => Except Errno Handle
  | .seekEnd _ => Except Errno Unit
  | .goBack _ _ => Bool
  | .position _ => Nat
  | .joint => Nat
  | .stat _ _ _ => Except Errno FileKind
  | .info _ _ _ => Except Errno FileInfo
  | .infoOf _ => Option FileInfo
  | .nameCount _ => Nat
  | .fetch _ _ => Except Errno Bytes
  | .enter _ _ => Except Errno Ino
  | .change _ _ => Except Errno Unit
  | .list _ _ => Except Errno (List String)
  | .readLink _ _ => Except Errno String
  | .pathOf _ => Except Errno String
  | .environment => List (String × String)
  | .directory => Ino

namespace World

/-- The open file with a number, unless it was closed. -/
def openFile? (w : World) (h : Handle) : Option OpenFile :=
  match w.opened[h]? with
  | some f => if f.isOpen then some f else none
  | none => none

/-- Put bytes into a content at a position. A gap before the position is filled with zeros. -/
def splice (content : Bytes) (position : Nat) (data : Bytes) : Bytes :=
  content.take position ++ List.replicate (position - content.length) 0 ++ data ++
    content.drop (position + data.length)

/-- Move the position of an open file. -/
def seek (w : World) (h : Handle) (f : OpenFile) (position : Nat) : World :=
  { w with opened := w.opened.setIfInBounds h { f with position } }

/-- Read from an open file. -/
def readFile (w : World) (h : Handle) (f : OpenFile) (limit : Nat) : Except Errno Bytes × World :=
  if f.mode = .truncate || f.mode = .append then (.error .badDescriptor, w)
  else if limit = 0 then (.ok [], w)
  else
  match w.files.node? f.node with
  | some (.file content _) =>
    let data := (content.drop f.position).take limit
    (.ok data, w.seek h f (f.position + data.length))
  | some (.dir _ _) => (.error .isDirectory, w)
  | some (.device .faulty) => (.error .inputOutput, w)
  | some (.device .zero) | some (.device .full) => (.ok (List.replicate limit 0), w)
  | _ => (.ok [], w)

/-- Write to an open file. -/
def writeFile (w : World) (h : Handle) (f : OpenFile) (data : Bytes) : Except Errno Unit × World :=
  if f.mode = .read then (.error .badDescriptor, w)
  else if data.isEmpty then (.ok (), w)
  else
  match w.files.node? f.node with
  | some (.file content executable) =>
    let position := if f.mode = .append then content.length else f.position
    let content := splice content position data
    let w := { w with files := w.files.setNode f.node (.file content executable) }
    (.ok (), w.seek h f (position + data.length))
  | some (.device .full) => (.error .noSpace, w)
  | some (.device .faulty) => (.error .inputOutput, w)
  | some (.device .consoleOut) => (.ok (), { w with out := w.out ++ data })
  | some (.device .consoleErr) => (.ok (), { w with err := w.err ++ data })
  | _ => (.ok (), w)

/-- Read from a source. -/
def read (w : World) (source : Source) (limit : Nat) : Except Errno Bytes × World :=
  match source with
  | .file h =>
    match w.openFile? h with
    | some f => w.readFile h f limit
    | none => (.error .badDescriptor, w)
  | .pipe => (.ok [], w)
  | .joint n =>
    let content := (w.joints.getD n []).reverse.flatten
    let rest := content.drop limit
    (.ok (content.take limit), { w with joints := w.joints.setIfInBounds n (if rest.isEmpty then [] else [rest]) })
  | .empty => (.ok [], w)
  | .closed => (.error .badDescriptor, w)

/-- Write to a sink. -/
def write (w : World) (sink : Sink) (data : Bytes) : Except Errno Unit × World :=
  match sink with
  | .file h =>
    match w.openFile? h with
    | some f => w.writeFile h f data
    | none => (.error .badDescriptor, w)
  | .pipe => (.ok (), { w with piped := w.piped ++ data })
  | .joint n => (.ok (), { w with joints := w.joints.modify n (data :: ·) })
  | .out => (.ok (), { w with out := w.out ++ data })
  | .err => (.ok (), { w with err := w.err ++ data })
  | .closed => (.error .badDescriptor, w)

/-- Open a file. -/
def openPath (w : World) (base : Ino) (path : String) (mode : FileSystem.Mode) :
    Except Errno Handle × World :=
  match w.files.openNode base path mode with
  | .error e => (.error e, w)
  | .ok (files, node) =>
    (.ok w.opened.size, { w with files, opened := w.opened.push { node, mode } })

/-- Close an open file. -/
def close (w : World) (h : Handle) : World :=
  match w.opened[h]? with
  | some f => { w with opened := w.opened.setIfInBounds h { f with isOpen := false } }
  | none => w

/-- Open the file of an open file once more. -/
def reopen (w : World) (h : Handle) (mode : FileSystem.Mode) : Except Errno Handle × World :=
  match w.openFile? h with
  | none => (.error .noEntry, w)
  | some f =>
    let files := if mode = .truncate then w.files.emptied f.node else w.files
    (.ok w.opened.size, { w with files, opened := w.opened.push { node := f.node, mode } })

/-- Go to the end of an open file, if it has one. -/
def seekEnd (w : World) (h : Handle) : Except Errno Unit × World :=
  match w.openFile? h with
  | none => (.error .badDescriptor, w)
  | some f =>
    match w.files.node? f.node with
    | some (.file content _) => (.ok (), w.seek h f content.length)
    | some (.device .faulty) => (.error .invalid, w)
    | _ => (.ok (), w)

/-- Go back in a stored file. Gives whether that was possible. -/
def goBack (w : World) (h : Handle) (count : Nat) : Bool × World :=
  match w.openFile? h with
  | none => (false, w)
  | some f =>
    match w.files.node? f.node with
    | some (.file _ _) => (true, w.seek h f (f.position - count))
    | _ => (false, w)

/-- The directory that a path leads to. -/
def enter (w : World) (base : Ino) (path : String) : Except Errno Ino :=
  match w.files.find base path true with
  | .error e => .error e
  | .ok i => if (w.files.entries? i).isSome then .ok i else .error .notDirectory

/-- The names in a directory. -/
def list (w : World) (base : Ino) (path : String) : Except Errno (List String) :=
  match w.files.find base path true with
  | .error e => .error e
  | .ok i =>
    match w.files.entries? i with
    | some entries => .ok (entries.map (·.1))
    | none => .error .notDirectory

/-- The text of a symbolic link. -/
def readLink (w : World) (base : Ino) (path : String) : Except Errno String :=
  match w.files.find base path false with
  | .error e => .error e
  | .ok i =>
    match w.files.node? i with
    | some (.link target) => .ok target
    | _ => .error .invalid

/-- Serve a call. -/
def perform (w : World) : (c : Call) → c.Reply × World
  | .read source limit => w.read source limit
  | .write sink data => w.write sink data
  | .hangUp _ => ((), w)
  | .close h => ((), w.close h)
  | .openFile base path mode => w.openPath base path mode
  | .reopen h mode => w.reopen h mode
  | .seekEnd h => w.seekEnd h
  | .goBack h count => w.goBack h count
  | .position h => (((w.openFile? h).map (·.position)).getD 0, w)
  | .joint => (w.joints.size, { w with joints := w.joints.push [] })
  | .stat base path followLast => (w.files.stat base path followLast, w)
  | .info base path followLast => (w.files.info base path followLast, w)
  | .infoOf h => ((w.openFile? h).bind fun f => w.files.infoOf f.node, w)
  | .nameCount node => (w.files.nameCount node, w)
  | .fetch base path => (w.files.fetch base path, w)
  | .enter base path => (w.enter base path, w)
  | .change base what =>
    match w.files.apply base what with
    | .ok files => (.ok (), { w with files })
    | .error e => (.error e, w)
  | .list base path => (w.list base path, w)
  | .readLink base path => (w.readLink base path, w)
  | .pathOf dir => (w.files.pathOf dir, w)
  | .environment => (w.environment, w)
  | .directory => (w.directory, w)

end World

end Conch
