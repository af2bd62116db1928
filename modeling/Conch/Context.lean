-- SUMMARY: What a session knows: its directory, its home and where it looks for programs.
import Conch.Path

/-!
# Session contexts

Names are taken relative to the session's directory, which is a path in normal
form and not a place in the file system: it keeps the links that were walked
through, and may name what is no longer there.
-/

namespace Conch

/-- The state of a session that outlives a line. -/
structure Context where
  directory : Path
  home : Path
  /-- The directories in which bare command names are looked up, in order. -/
  searchPath : List String
  deriving DecidableEq, Repr

/-- The path that a name means in this session. -/
def Context.resolve (ctx : Context) (name : Path) : Path :=
  (ctx.directory.join name).normalize

/-- The context after moving to another directory. -/
def Context.moveTo (ctx : Context) (directory : Path) : Context :=
  { ctx with directory }

end Conch
