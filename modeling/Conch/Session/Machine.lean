-- SUMMARY: Machines: worlds with the usual directories, devices and installed programs.
import Conch.System.World

/-!
# Machines

A fresh machine has a root directory with the usual places in it: devices, the
installed programs, and room for users. Files are put on it by path.
-/

namespace Conch

/-- Something to put into a file system. -/
inductive Placement where
  | file (content : Bytes) (executable : Bool)
  | dir
  | link (target : String)
  | device (d : Device)
  | program (name : String)
  deriving DecidableEq, Repr

namespace FileSystem

/-- Make the directories along a path from the root, and give the last one. What cannot be made is
    passed over. -/
def makeDirs (fs : FileSystem) (names : List String) : FileSystem × Ino :=
  names.foldl (fun (fs, here) name =>
    match fs.walk { followLast := true } maxLinks here [name] with
    | .ok (.found i) => (fs, i)
    | .ok (.missing dir name) => fs.create dir name (.dir dir [])
    | .error _ => (fs, here)) (fs, root)

/-- Put something under a path from the root, with the directories that it needs. A file that is
    there already gets the new content, also through a link. -/
def place (fs : FileSystem) (path : Path) (what : Placement) : FileSystem :=
  match path.parts.getLast? with
  | none => fs
  | some name =>
    let (fs, dir) := fs.makeDirs path.parts.dropLast
    let put := fun (n : Node) =>
      match fs.entry? dir name with
      | some i => fs.setNode i n
      | none => (fs.create dir name n).1
    match what with
    | .file content executable =>
      match fs.openNode dir name .truncate with
      | .ok (fs, i) => fs.setNode i (.file content executable)
      | .error _ => fs
    | .dir => (fs.makeDirs path.parts).1
    | .link target => put (.link target)
    | .device d => put (.device d)
    | .program name => put (.program name)

/-- Put several things in, one after the other. -/
def placeAll (fs : FileSystem) (list : List (Path × Placement)) : FileSystem :=
  list.foldl (fun fs (path, what) => fs.place path what) fs

end FileSystem

namespace Machine

/-- An absolute path from its parts. -/
def absolute (parts : List String) : Path := ⟨.root, parts⟩

/-- The places of a fresh machine, apart from programs. -/
def places : List (Path × Placement) :=
  [ (absolute ["dev", "null"], .device .null),
    (absolute ["dev", "zero"], .device .zero),
    (absolute ["dev", "full"], .device .full),
    (absolute ["dev", "tty"], .device .absent),
    (absolute ["dev", "stdin"], .device .null),
    (absolute ["dev", "stdout"], .device .consoleOut),
    (absolute ["dev", "stderr"], .device .consoleErr),
    (absolute ["proc", "self", "mem"], .device .faulty),
    (absolute ["etc"], .dir),
    (absolute ["home"], .dir),
    (absolute ["root"], .dir),
    (absolute ["tmp"], .dir),
    (absolute ["var"], .dir),
    (absolute ["usr", "bin"], .dir),
    (absolute ["bin"], .link "usr/bin") ]

/-- The file system of a fresh machine with programs of the given names. -/
def fresh (programs : List String) : FileSystem :=
  (FileSystem.empty.placeAll places).placeAll
    (programs.map fun name => (absolute ["usr", "bin", name], .program name))

end Machine

end Conch
