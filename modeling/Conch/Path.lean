-- SUMMARY: Paths as text: splitting into parts, joining, and the lexical normal form.

/-!
# Paths

A path is an anchor and the parts between its slashes. Empty parts and `.` are
dropped when a text is read as a path, while `..` stays. The normal form lets
each `..` cancel the part before it, without looking at any file: at the root it
vanishes.

Two leading slashes are an anchor of their own; three or more mean one.
-/

namespace Conch

/-- What a path starts from. -/
inductive Anchor where
  | relative
  | root
  | doubleRoot
  deriving DecidableEq, Repr

/-- The slashes of an anchor. -/
def Anchor.text : Anchor → String
  | .relative => ""
  | .root => "/"
  | .doubleRoot => "//"

/-- A path: what it starts from, and its parts in order. -/
structure Path where
  anchor : Anchor
  parts : List String
  deriving DecidableEq, Repr

namespace Path

/-! ## Reading and writing -/

/-- The pieces of a text between its slashes, empty ones included. -/
def pieces : List Char → List (List Char)
  | [] => [[]]
  | c :: cs =>
    if c = '/' then [] :: pieces cs
    else
      match pieces cs with
      | [] => [[c]]
      | piece :: rest => (c :: piece) :: rest

/-- The anchor that a text begins with. -/
def anchorOf : List Char → Anchor
  | '/' :: '/' :: '/' :: _ => .root
  | '/' :: '/' :: _ => .doubleRoot
  | '/' :: _ => .root
  | _ => .relative

/-- A piece that names something: neither empty nor a single dot. -/
def isPart (piece : String) : Bool :=
  piece ≠ "" && piece ≠ "."

/-- Read a text as a path. -/
def ofString (text : String) : Path where
  anchor := anchorOf text.toList
  parts := ((pieces text.toList).map String.ofList).filter isPart

/-- A path as a text; the relative path without parts is a single dot. -/
def toString (p : Path) : String :=
  if p.anchor = .relative ∧ p.parts = [] then "."
  else p.anchor.text ++ "/".intercalate p.parts

instance : ToString Path := ⟨Path.toString⟩

/-- Whether a path stands on its own, whatever the directory. -/
def isAbsolute (p : Path) : Bool :=
  p.anchor ≠ .relative

/-- The root directory. -/
def rootPath : Path := ⟨.root, []⟩

/-! ## Joining and normal form -/

/-- The second path seen from the first. An absolute one is not affected. -/
def join (p q : Path) : Path :=
  if q.isAbsolute then q else ⟨p.anchor, p.parts ++ q.parts⟩

/-- Put one more part on a stack of parts, the latest first. `..` takes a part away;
    with nothing to take away it vanishes under an anchor and stays otherwise. -/
def push (anchored : Bool) (stack : List String) (part : String) : List String :=
  if part = ".." then
    match stack with
    | [] => if anchored then [] else [".."]
    | top :: below => if top = ".." then ".." :: stack else below
  else part :: stack

/-- The lexical normal form: every `..` has cancelled what it can. -/
def normalize (p : Path) : Path where
  anchor := p.anchor
  parts := (p.parts.foldl (push p.isAbsolute) []).reverse

end Path

end Conch
