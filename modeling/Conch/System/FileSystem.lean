-- SUMMARY: File systems as values: nodes, walking a path, and the changes that programs make.
import Conch.Bytes
import Conch.Path
import Conch.System.Errno

/-!
# File systems

A file system is a store of nodes. Directories hold names for nodes, so one file
can have several names, and a file that lost its last name is still there for
whoever has it open. Node 0 is the root directory.

A path is walked part by part from a directory. Symbolic links on the way are
followed, at most `maxLinks` of them. A walk that ends at a name which is not
there tells where the name would go, so that a file can be made. A slash at the
end of a path means that the path has to lead to a directory.
-/

namespace Conch

/-! ## Nodes -/

/-- The number of a node. -/
abbrev Ino := Nat

/-- Files that are not storage. -/
inductive Device where
  /-- Reads nothing and takes everything. -/
  | null
  /-- Reads as zeros and takes everything. -/
  | zero
  /-- Reads as zeros and has no room for any byte. -/
  | full
  /-- Can neither be read nor written, and has no end. -/
  | faulty
  /-- Cannot be opened. -/
  | absent
  /-- The console's output. -/
  | consoleOut
  /-- The console's diagnostics. -/
  | consoleErr
  deriving DecidableEq, Repr

/-- What a node is. -/
inductive Node where
  | file (content : Bytes) (executable : Bool)
  | dir (parent : Ino) (entries : List (String × Ino))
  | link (target : String)
  | device (d : Device)
  /-- An executable that is one of the installed programs. -/
  | program (name : String)
  deriving DecidableEq, Repr

/-- A store of nodes. -/
structure FileSystem where
  nodes : Array Node

/-- What can be learned about a file without opening it. -/
inductive FileKind where
  | file (executable : Bool)
  | dir
  | link
  | device
  | program (name : String)
  deriving DecidableEq, Repr

/-- The kind of a node. -/
def Node.kind : Node → FileKind
  | .file _ executable => .file executable
  | .dir _ _ => .dir
  | .link _ => .link
  | .device _ => .device
  | .program name => .program name

/-- What can be learned about a file, with the number of its node and its size. -/
structure FileInfo where
  kind : FileKind
  node : Ino
  size : Nat
  deriving DecidableEq, Repr

/-- Whether a file of this kind is stored in the system and may be run. -/
def FileKind.isRunnable : FileKind → Bool
  | .file executable => executable
  | .program _ => true
  | _ => false

namespace FileSystem

/-- The root directory's number. -/
def root : Ino := 0

/-- A file system with an empty root directory. -/
def empty : FileSystem := ⟨#[.dir root []]⟩

/-- The node with a number. -/
def node? (fs : FileSystem) (i : Ino) : Option Node := fs.nodes[i]?

/-- The entries of a directory. -/
def entries? (fs : FileSystem) (i : Ino) : Option (List (String × Ino)) :=
  match fs.node? i with
  | some (.dir _ entries) => some entries
  | _ => none

/-- Replace a node. -/
def setNode (fs : FileSystem) (i : Ino) (n : Node) : FileSystem :=
  ⟨fs.nodes.setIfInBounds i n⟩

/-- Store a new node, and give its number. -/
def addNode (fs : FileSystem) (n : Node) : FileSystem × Ino :=
  (⟨fs.nodes.push n⟩, fs.nodes.size)

/-! ## Walking -/

/-- The longest name, in bytes. -/
def maxName : Nat := 255

/-- The length in bytes from which on a path is too long. -/
def pathLimit : Nat := 4096

/-- How many symbolic links one walk follows. -/
def maxLinks : Nat := 40

/-- Where a walk ends. -/
inductive Spot where
  | found (node : Ino)
  /-- The last name of the path is not in the directory it should be in. -/
  | missing (dir : Ino) (name : String)
  deriving DecidableEq, Repr

/-- The names in a path, without empty ones. -/
def namesIn (path : String) : List String :=
  ((Path.pieces path.toList).map String.ofList).filter (· ≠ "")

/-- Whether a path ends in a slash, so that it has to lead to a directory. -/
def endsInSlash (path : String) : Bool :=
  path.toList.getLast? = some '/'

/-- The names that a path walks through. An empty name at the end stands for a slash there. -/
def steps (path : String) : List String :=
  if endsInSlash path then namesIn path ++ [""] else namesIn path

/-- The names that a link's target and the rest of a path walk through. -/
def stepsThrough (target : String) (rest : List String) : List String :=
  if rest.isEmpty then steps target else namesIn target ++ rest

/-- Where a path begins: at the root if it is absolute, else in the given directory. -/
def startOf (base : Ino) (path : String) : Ino :=
  if path.toList.head? = some '/' then root else base

/-- What a walk is for. -/
structure Walk where
  /-- Whether a link at the very end is followed. -/
  followLast : Bool
  /-- Whether the last name may be made as a file, which a slash after it excludes. -/
  creating : Bool := false

/-- Walk from a directory, handing over to `follow` at a symbolic link. -/
def walkWith (fs : FileSystem) (follow : Ino → List String → Except Errno Spot) (how : Walk) :
    Ino → List String → Except Errno Spot
  | here, [] => .ok (.found here)
  | here, name :: rest =>
    match fs.node? here with
    | some (.dir parent entries) =>
      if name = "" || name = "." then walkWith fs follow how here rest
      else if name = ".." then walkWith fs follow how parent rest
      else if how.creating && rest = [""] then .error .isDirectory
      else if maxName < byteSize name then .error .nameTooLong
      else
        match entries.lookup name with
        | none => if rest.isEmpty then .ok (.missing here name) else .error .noEntry
        | some i =>
          match fs.node? i with
          | some (.link target) =>
            if rest.isEmpty && !how.followLast then .ok (.found i)
            else if target = "" then .error .noEntry
            else follow (startOf here target) (stepsThrough target rest)
          | _ => walkWith fs follow how i rest
    | _ => .error .notDirectory

/-- Walk from a directory, following at most the given number of links. -/
def walk (fs : FileSystem) (how : Walk) : Nat → Ino → List String → Except Errno Spot
  | 0 => walkWith fs (fun _ _ => .error .linkLoop) how
  | links + 1 => walkWith fs (walk fs how links) how

/-- Where a path leads, seen from a directory. -/
def locate (fs : FileSystem) (base : Ino) (path : String) (how : Walk) : Except Errno Spot :=
  if path = "" then .error .noEntry
  else if pathLimit ≤ byteSize path then .error .nameTooLong
  else fs.walk how maxLinks (startOf base path) (steps path)

/-- The number of the node that a path leads to. -/
def find (fs : FileSystem) (base : Ino) (path : String) (followLast : Bool) : Except Errno Ino :=
  match fs.locate base path { followLast } with
  | .ok (.found i) => .ok i
  | .ok (.missing _ _) => .error .noEntry
  | .error e => .error e

/-- The kind of what a path leads to. -/
def stat (fs : FileSystem) (base : Ino) (path : String) (followLast : Bool) : Except Errno FileKind :=
  match fs.find base path followLast with
  | .error e => .error e
  | .ok i =>
    match fs.node? i with
    | some n => .ok n.kind
    | none => .error .noEntry

/-- What can be learned about a node. -/
def infoOf (fs : FileSystem) (i : Ino) : Option FileInfo :=
  match fs.node? i with
  | none => none
  | some n =>
    let size := match n with
      | .file content _ => content.length
      | .link target => byteSize target
      | .dir _ _ => 4096
      | .device _ => 0
      | .program _ => 100000
    some { kind := n.kind, node := i, size }

/-- What can be learned about the file that a path leads to. -/
def info (fs : FileSystem) (base : Ino) (path : String) (followLast : Bool) : Except Errno FileInfo :=
  match fs.find base path followLast with
  | .error e => .error e
  | .ok i =>
    match fs.infoOf i with
    | some info => .ok info
    | none => .error .noEntry

/-- How many names a node has. -/
def nameCount (fs : FileSystem) (i : Ino) : Nat :=
  fs.nodes.foldl (fun count n =>
    match n with
    | .dir _ entries => count + (entries.filter (·.2 = i)).length
    | _ => count) 0

/-- What a path refers to by its last part. -/
inductive LastPart where
  /-- A name in a directory, and whether a slash follows it. -/
  | name (dir : Ino) (name : String) (slash : Bool)
  | root
  | here
  | above
  deriving DecidableEq, Repr

/-- The last part of a path, which is not followed if it is a link. -/
def lastPart (fs : FileSystem) (base : Ino) (path : String) : Except Errno LastPart :=
  if path = "" then .error .noEntry
  else if pathLimit ≤ byteSize path then .error .nameTooLong
  else
    let names := namesIn path
    match fs.walk { followLast := true } maxLinks (startOf base path) names.dropLast with
    | .error e => .error e
    | .ok (.missing _ _) => .error .noEntry
    | .ok (.found dir) =>
      if (fs.entries? dir).isNone then .error .notDirectory
      else
        match names.getLast? with
        | none => .ok .root
        | some "." => .ok .here
        | some ".." => .ok .above
        | some name =>
          if maxName < byteSize name then .error .nameTooLong
          else .ok (.name dir name (endsInSlash path))

/-- The node that a name of a directory stands for. -/
def entry? (fs : FileSystem) (dir : Ino) (name : String) : Option Ino :=
  (fs.entries? dir).bind (·.lookup name)

/-- The path of a directory from the root, found by climbing. `fuel` bounds the climb. -/
def climb (fs : FileSystem) : Nat → Ino → List String → Except Errno (List String)
  | 0, _, _ => .error .noEntry
  | fuel + 1, i, below =>
    if i = root then .ok below
    else
      match fs.node? i with
      | some (.dir parent _) =>
        match (fs.entries? parent).bind (·.find? (·.2 = i)) with
        | some (name, _) => climb fs fuel parent (name :: below)
        | none => .error .noEntry
      | _ => .error .notDirectory

/-- The path of a directory from the root; a directory that was removed has none. -/
def pathOf (fs : FileSystem) (dir : Ino) : Except Errno String :=
  match fs.climb fs.nodes.size dir [] with
  | .ok names => .ok ("/" ++ "/".intercalate names)
  | .error e => .error e

/-! ## Changing -/

/-- Set or take away a name in a directory. The order of the other names is kept. -/
def setEntry (fs : FileSystem) (dir : Ino) (name : String) (target : Option Ino) : FileSystem :=
  match fs.node? dir with
  | some (.dir parent entries) =>
    let entries :=
      match target with
      | none => entries.filter (·.1 ≠ name)
      | some i =>
        if (entries.lookup name).isSome then entries.map fun e => if e.1 = name then (name, i) else e
        else entries ++ [(name, i)]
    fs.setNode dir (.dir parent entries)
  | _ => fs

/-- Put a new node under a name of a directory, and give its number. -/
def create (fs : FileSystem) (dir : Ino) (name : String) (n : Node) : FileSystem × Ino :=
  let (fs, i) := fs.addNode n
  (fs.setEntry dir name (some i), i)

/-- The changes that programs ask for, besides writing to files. -/
inductive Change where
  | makeDir (path : String)
  | removeDir (path : String)
  | unlink (path : String)
  | symlink (target path : String)
  | hardLink (existing path : String) (follow : Bool)
  | rename (source path : String) (keep : Bool)
  deriving DecidableEq, Repr

/-- Whether a directory lies in another, or is it. `fuel` bounds the climb. -/
def isWithin (fs : FileSystem) : Nat → Ino → Ino → Bool
  | 0, _, _ => false
  | fuel + 1, i, outer =>
    i = outer ||
      (i ≠ root &&
        match fs.node? i with
        | some (.dir parent _) => isWithin fs fuel parent outer
        | _ => false)

/-- The place for a new name. A slash after it is fine for a directory only. -/
def freePlace (fs : FileSystem) (base : Ino) (path : String) (forDir : Bool) :
    Except Errno (Ino × String) := do
  match ← fs.lastPart base path with
  | .name dir name slash =>
    if (fs.entry? dir name).isSome then throw .alreadyExists
    else if slash && !forDir then throw .noEntry
    else return (dir, name)
  | _ => throw .alreadyExists

/-- Make a directory. -/
def makeDir (fs : FileSystem) (base : Ino) (path : String) : Except Errno FileSystem := do
  let (dir, name) ← fs.freePlace base path true
  return (fs.create dir name (.dir dir [])).1

/-- Remove an empty directory. -/
def removeDir (fs : FileSystem) (base : Ino) (path : String) : Except Errno FileSystem := do
  match ← fs.lastPart base path with
  | .root => throw .busy
  | .here => throw .invalid
  | .above => throw .notEmpty
  | .name dir name _ =>
    match fs.entry? dir name with
    | none => throw .noEntry
    | some i =>
      match fs.entries? i with
      | none => throw .notDirectory
      | some [] => return fs.setEntry dir name none
      | some _ => throw .notEmpty

/-- Take a name away from something that is not a directory. -/
def unlink (fs : FileSystem) (base : Ino) (path : String) : Except Errno FileSystem := do
  match ← fs.lastPart base path with
  | .name dir name slash =>
    match fs.entry? dir name with
    | none => throw .noEntry
    | some i =>
      if (fs.entries? i).isSome then throw .isDirectory
      else if slash then throw .notDirectory
      else return fs.setEntry dir name none
  | _ => throw .isDirectory

/-- Make a symbolic link. -/
def symlink (fs : FileSystem) (base : Ino) (target path : String) : Except Errno FileSystem := do
  if target = "" then throw .noEntry
  if pathLimit ≤ byteSize target then throw .nameTooLong
  let (dir, name) ← fs.freePlace base path false
  return (fs.create dir name (.link target)).1

/-- Give a file one more name. A link is followed to the file only if `follow` is set. -/
def hardLink (fs : FileSystem) (base : Ino) (existing path : String) (follow : Bool) :
    Except Errno FileSystem := do
  let i ← fs.find base existing follow
  let (dir, name) ← fs.freePlace base path false
  if (fs.entries? i).isSome then throw .notPermitted
  else return fs.setEntry dir name (some i)

/-- Give a node another name in place of the one it has. A file may take the place
    of a file, and a directory that of an empty directory. With `keep`, what has the new name
    is not replaced. -/
def rename (fs : FileSystem) (base : Ino) (source path : String) (keep : Bool) :
    Except Errno FileSystem := do
  let old ← fs.lastPart base source
  let new ← fs.lastPart base path
  match old, new with
  | .name fromDir fromName fromSlash, .name toDir toName toSlash =>
    let some i := fs.entry? fromDir fromName | throw .noEntry
    let there := fs.entry? toDir toName
    if keep && there.isSome then throw .alreadyExists
    let isDir := (fs.entries? i).isSome
    if !isDir && (fromSlash || toSlash) then throw .notDirectory
    if isDir && fs.isWithin fs.nodes.size toDir i then throw .invalid
    if let some j := there then
      if (fs.entries? j).isSome && fs.isWithin fs.nodes.size fromDir j then throw .notEmpty
      if i = j then return fs
      match fs.entries? j, isDir with
      | some _, false => throw .isDirectory
      | none, true => throw .notDirectory
      | some (_ :: _), true => throw .notEmpty
      | _, _ => pure ()
    let fs := (fs.setEntry fromDir fromName none).setEntry toDir toName (some i)
    match fs.node? i with
    | some (.dir _ entries) => return fs.setNode i (.dir toDir entries)
    | _ => return fs
  | .name _ _ _, _ => throw (if keep then .alreadyExists else .busy)
  | _, _ => throw .busy

/-- Carry out a change, with paths seen from a directory. -/
def apply (fs : FileSystem) (base : Ino) : Change → Except Errno FileSystem
  | .makeDir path => fs.makeDir base path
  | .removeDir path => fs.removeDir base path
  | .unlink path => fs.unlink base path
  | .symlink target path => fs.symlink base target path
  | .hardLink existing path follow => fs.hardLink base existing path follow
  | .rename source path keep => fs.rename base source path keep

/-! ## Opening -/

/-- What a file is opened for. -/
inductive Mode where
  | read
  /-- Emptied first, or made. -/
  | truncate
  /-- Kept, or made; every write goes to its end. -/
  | append
  /-- Kept, or made, to be read and written. -/
  | update
  deriving DecidableEq, Repr

/-- Empty a file that storage backs. -/
def emptied (fs : FileSystem) (i : Ino) : FileSystem :=
  match fs.node? i with
  | some (.file _ executable) => fs.setNode i (.file [] executable)
  | _ => fs

/-- Find or make the file that a path is opened as. -/
def openNode (fs : FileSystem) (base : Ino) (path : String) (mode : Mode) :
    Except Errno (FileSystem × Ino) :=
  match fs.locate base path { followLast := true, creating := mode ≠ .read } with
  | .error e => .error e
  | .ok (.missing dir name) =>
    if mode = .read then .error .noEntry
    else .ok (fs.create dir name (.file [] false))
  | .ok (.found i) =>
    match fs.node? i with
    | some (.dir _ _) => if mode = .read then .ok (fs, i) else .error .isDirectory
    | some (.device .absent) => .error .noDevice
    | some (.program _) => if mode = .read then .ok (fs, i) else .error .busyText
    | _ => if mode = .truncate then .ok (fs.emptied i, i) else .ok (fs, i)

/-- All that can be read from a file. No memory holds what a device without an end gives. -/
def fetch (fs : FileSystem) (base : Ino) (path : String) : Except Errno Bytes :=
  match fs.find base path true with
  | .error e => .error e
  | .ok i =>
    match fs.node? i with
    | some (.file content _) => .ok content
    | some (.dir _ _) => .error .isDirectory
    | some (.device .faulty) => .error .inputOutput
    | some (.device .absent) => .error .noDevice
    | some (.device .zero) | some (.device .full) => .error .noMemory
    | _ => .ok []

end FileSystem

end Conch
