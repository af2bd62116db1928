-- SUMMARY: What a call on the world looks at or changes, piece by piece.
import Conch.System.World

/-!
# Footprints

A world has pieces that can be looked at and changed on their own: a node without
the names in it, what a single name in a directory stands for, an open file, and
the two streams of the console. `World.touches` lists the pieces that a call looks
at or changes, apart from the console, for the calls that the interpreter makes on
behalf of a stage, and `World.Same` says that a piece is the same in two worlds.

A walk touches every directory it goes through, every name it looks up, and what
it ends at. A name that is missing is touched too: whether it is there matters.
-/

namespace Conch

/-- A piece of a world. -/
inductive Touch where
  /-- A node, without the names in it if it is a directory. -/
  | node (i : Ino)
  /-- What a name in a directory stands for, if anything. -/
  | name (dir : Ino) (name : String)
  | file (h : Handle)
  | out
  | err
  | environment
  deriving DecidableEq

/-- A node without the names in it. -/
def Node.bare : Node → Node
  | .dir parent _ => .dir parent []
  | n => n

/-- A piece is the same in two worlds. -/
def World.Same (w w' : World) : Touch → Prop
  | .node i => (w.files.node? i).map Node.bare = (w'.files.node? i).map Node.bare
  | .name dir name => w.files.entry? dir name = w'.files.entry? dir name
  | .file h => w.opened[h]? = w'.opened[h]?
  | .out => w.out = w'.out
  | .err => w.err = w'.err
  | .environment => w.environment = w'.environment

instance (w w' : World) : DecidablePred (w.Same w')
  | .node i => inferInstanceAs (Decidable ((w.files.node? i).map Node.bare = (w'.files.node? i).map Node.bare))
  | .name dir name => inferInstanceAs (Decidable (w.files.entry? dir name = w'.files.entry? dir name))
  | .file h => inferInstanceAs (Decidable (w.opened[h]? = w'.opened[h]?))
  | .out => inferInstanceAs (Decidable (w.out = w'.out))
  | .err => inferInstanceAs (Decidable (w.err = w'.err))
  | .environment => inferInstanceAs (Decidable (w.environment = w'.environment))

/-! ## Walks -/

namespace FileSystem

/-- What a walk touches, handing over to `follow` at a symbolic link. -/
def trailWith (fs : FileSystem) (follow : Ino → List String → List Touch) (how : Walk) :
    Ino → List String → List Touch
  | here, [] => [.node here]
  | here, name :: rest =>
    .node here ::
    match fs.node? here with
    | some (.dir parent entries) =>
      if name = "" || name = "." then trailWith fs follow how here rest
      else if name = ".." then trailWith fs follow how parent rest
      else if how.creating && rest = [""] then []
      else if maxName < byteSize name then []
      else
        .name here name ::
        match entries.lookup name with
        | none => []
        | some i =>
          .node i ::
          match fs.node? i with
          | some (.link target) =>
            if rest.isEmpty && !how.followLast then []
            else if target = "" then []
            else follow (startOf here target) (stepsThrough target rest)
          | _ => trailWith fs follow how i rest
    | _ => []

/-- What a walk touches that follows at most the given number of links. -/
def trail (fs : FileSystem) (how : Walk) : Nat → Ino → List String → List Touch
  | 0 => trailWith fs (fun _ _ => []) how
  | links + 1 => trailWith fs (trail fs how links) how

/-- What finding out where a path leads touches. -/
def trailOf (fs : FileSystem) (base : Ino) (path : String) (how : Walk) : List Touch :=
  if path = "" then []
  else if pathLimit ≤ byteSize path then []
  else fs.trail how maxLinks (startOf base path) (steps path)

end FileSystem

/-! ## Calls -/

namespace World

/-- What using an open file touches: the file and the node it was opened as. -/
def touchesOpen (w : World) (h : Handle) : List Touch :=
  .file h :: ((w.opened[h]?).map fun f => Touch.node f.node).toList

/-- What opening a file touches: its path, and if it is opened, the node and the number it gets. -/
def touchesOpening (w : World) (base : Ino) (path : String) (mode : FileSystem.Mode) : List Touch :=
  w.files.trailOf base path { followLast := true, creating := mode ≠ .read } ++
    match w.files.openNode base path mode with
    | .error _ => []
    | .ok (_, i) => [.node i, .file w.opened.size]

/-- What a call touches, of those that are made for a stage. No reply depends on what has gone to the
    console, so that the console is not among it. -/
def touches (w : World) : Call → List Touch
  | .write (.file h) _ => w.touchesOpen h
  | .close h => [.file h]
  | .openFile base path mode => w.touchesOpening base path mode
  | .seekEnd h => w.touchesOpen h
  | .stat base path followLast => w.files.trailOf base path { followLast }
  | .fetch base path => w.files.trailOf base path { followLast := true }
  | .enter base path => w.files.trailOf base path { followLast := true }
  | .environment => [.environment]
  | _ => []

end World

end Conch
