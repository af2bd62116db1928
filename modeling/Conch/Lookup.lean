-- SUMMARY: What a command name means: a built-in command, a program, or nothing.
import Conch.Context
import Conch.System.Job

/-!
# Command lookup

Four names are built in and always win. A name with a slash in it is a path and
is checked in place. Any other name is looked for in the directories of the
search path, and the first executable file wins.
-/

namespace Conch

/-- The built-in commands. -/
inductive Builtin where
  | exit
  | echo
  | type
  | cd
  deriving DecidableEq, Repr

/-- The name of a built-in command. -/
def Builtin.name : Builtin → String
  | .exit => "exit"
  | .echo => "echo"
  | .type => "type"
  | .cd => "cd"

/-- The built-in command with a name. -/
def Builtin.ofName? (name : String) : Option Builtin :=
  if name = "exit" then some .exit
  else if name = "echo" then some .echo
  else if name = "type" then some .type
  else if name = "cd" then some .cd
  else none

/-- What a command name means. -/
inductive Resolution where
  | builtin (b : Builtin)
  | external (path : Path)
  | notFound
  deriving DecidableEq, Repr

namespace Lookup

/-- Whether a path leads to a stored file that may be run. -/
def isExecutable (path : Path) : Job Bool := do
  if hasNul path.toString then return false
  match ← Job.call (.stat FileSystem.root path.toString true) with
  | .ok kind => return kind.isRunnable
  | .error _ => return false

/-- The first executable among some candidates. -/
def firstExecutable : List Path → Job (Option Path)
  | [] => return none
  | path :: rest => do
    if ← isExecutable path then return some path
    else firstExecutable rest

/-- The paths that a command name may mean, in the order they are tried. -/
def candidates (ctx : Context) (name : String) : List Path :=
  if name.toList.contains '/' then [ctx.resolve (Path.ofString name)]
  else ctx.searchPath.map fun dir => ctx.resolve ((Path.ofString dir).join (Path.ofString name))

/-- What a command name means in a session. -/
def find (ctx : Context) (name : String) : Job Resolution := do
  match Builtin.ofName? name with
  | some b => return .builtin b
  | none =>
    match ← firstExecutable (candidates ctx name) with
    | some path => return .external path
    | none => return .notFound

end Lookup

end Conch
