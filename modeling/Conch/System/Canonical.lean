-- SUMMARY: Canonical paths: absolute, with every symbolic link on the way replaced.
import Conch.System.Job

/-!
# Canonical paths

The canonical form of a path has no symbolic link in it. Parts that do not exist
are kept as they are, so every path has a canonical form, unless its links lead
in a circle: then what is left of the path is kept from the link on that closes
the circle.

A relative path stays relative until all its links are replaced. A link is
therefore known by the path on which it was met, and one that was met on a
relative path is not recognised when an absolute link leads back to it.
-/

namespace Conch

namespace Canonical

/-- The links met so far and the paths they led to; nothing yet for those being walked through. -/
abbrev Seen := List (String × Option String)

/-- A path seen from another: the first only counts if the second is relative. -/
def joined (path rest : String) : String :=
  if rest.toList.head? = some '/' then rest
  else if path = "" || path.toList.getLast? = some '/' then path ++ rest
  else path ++ "/" ++ rest

/-- The part of a path before its last name, and that name. -/
def splitLast (path : String) : String × String :=
  let cs := path.toList.reverse
  let name := cs.takeWhile (· ≠ '/')
  let before := cs.drop name.length
  let kept := before.dropWhile (· = '/')
  (String.ofList (if kept.isEmpty then before else kept).reverse, String.ofList name.reverse)

/-- One step up from a path. -/
def upward (path : String) : String :=
  if path = "" then ".."
  else
    let (before, name) := splitLast path
    if name = ".." then joined (joined before "..") ".." else before

/-- The first name of what is left of a path, and what follows the slash after it. -/
def nextName (rest : String) : String × String :=
  let cs := rest.toList
  let name := cs.takeWhile (· ≠ '/')
  (String.ofList name, String.ofList ((cs.drop name.length).drop 1))

/-- Where walking through a path starts, seen from another path, and what is left to walk through. -/
def beginning (path rest : String) : String × String :=
  if rest.toList.head? = some '/' then ("/", String.ofList (rest.toList.drop 1)) else (path, rest)

/-- Replace the links in what is left of a path behind a path that has none. Gives whether there
    was no circle. Relative paths are seen from the directory `base`. `fuel` bounds the number of
    names walked through. -/
def follow (base : Ino) : Nat → String → String → Seen → Job ((String × Bool) × Seen)
  | 0, path, rest, seen => return ((joined path rest, true), seen)
  | fuel + 1, path, rest, seen => do
    if rest = "" then return ((path, true), seen)
    let (name, rest) := nextName rest
    if name = "" || name = "." then follow base fuel path rest seen
    else if name = ".." then follow base fuel (upward path) rest seen
    else
      let next := joined path name
      match ← Job.call (.readLink base next) with
      | .error _ => follow base fuel next rest seen
      | .ok target =>
        match seen.lookup next with
        | some (some settled) => follow base fuel settled rest seen
        | some none => return ((joined next rest, false), seen)
        | none =>
          let (path, target) := beginning path target
          match ← follow base fuel path target ((next, none) :: seen) with
          | ((path, false), seen) => return ((joined path rest, false), seen)
          | ((path, true), seen) => follow base fuel path rest ((next, some path) :: seen)

/-- A bound on the names that one canonical path walks through. -/
def patience : Nat := 1000000

/-- The canonical form of a path. A relative one is seen from the directory `base`, whose path
    is `here`. -/
def canonical (base : Ino) (here : Path) (p : Path) : Job Path := do
  let (path, rest) := beginning "" p.toString
  let ((path, _), _) ← follow base patience path rest []
  return (here.join (Path.ofString path)).normalize

end Canonical

end Conch
