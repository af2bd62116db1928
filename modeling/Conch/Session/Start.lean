-- SUMMARY: The context that a session starts with.
import Conch.Context
import Conch.Fault
import Conch.System.Canonical

/-!
# Starting a session

A session starts in a directory and has a home, both canonical if they are given,
and a list of directories for commands. What is not given comes from the
interpreter's own directory and variables.
-/

namespace Conch

/-- Why a session cannot start. -/
inductive StartError where
  | fault (f : Fault)
  /-- The links of a path lead in a circle. -/
  | linkCircle (path : String)
  | noHome
  deriving DecidableEq, Repr

/-- The message for a session that cannot start. -/
def StartError.message : StartError → String
  | .fault f => f.message
  | .linkCircle path => "Symlink loop from " ++ quoted path
  | .noHome => "Could not determine home directory."

/-- What a session is started with. An empty text counts as not given. -/
structure StartOptions where
  directory : Option String := none
  home : Option String := none
  searchPath : Option (List String) := none

namespace Start

/-- The search path when no variable gives one. -/
def defaultSearchPath : String := "/bin:/usr/bin"

/-- The pieces of a text between its colons. -/
def colonPieces : List Char → List (List Char)
  | [] => [[]]
  | c :: cs =>
    if c = ':' then [] :: colonPieces cs
    else
      match colonPieces cs with
      | [] => [[c]]
      | piece :: rest => (c :: piece) :: rest

/-- The directories of a search path. -/
def searchList (text : String) : List String :=
  (colonPieces text.toList).map String.ofList

/-- A text that was given and is not empty. -/
def given? (text : Option String) : Option String :=
  text.filter (· ≠ "")

/-- The value of a variable. -/
def valueOf? (name : String) : Job (Option String) := do
  return (← Job.call .environment).lookup name

/-- The path of the interpreter's own directory. -/
def ownDirectory : Job (Except StartError Path) := do
  let dir ← Job.call .directory
  match ← Job.call (.pathOf dir) with
  | .ok path => return .ok (Path.ofString path)
  | .error e => return .error (.fault (.system e none))

/-- The canonical form of a path that was given. -/
def canonicalOf (p : Path) : Job (Except StartError Path) := do
  if hasNul p.toString then return .error (.fault .nul)
  match ← (if p.isAbsolute then return .ok Path.rootPath else ownDirectory) with
  | .error e => return .error e
  | .ok here =>
    let path ← Canonical.canonical (← Job.call .directory) here p
    match ← Job.call (.stat FileSystem.root path.toString true) with
    | .error .linkLoop => return .error (.linkCircle path.toString)
    | _ => return .ok path

/-- The home directory of the variables. -/
def ownHome : Job Path := do
  let home := ((← valueOf? "HOME").getD "/").toList.reverse.dropWhile (· = '/')
  return Path.ofString (if home.isEmpty then "/" else String.ofList home.reverse)

/-- A path with `~` at its start replaced by the home directory. -/
def expandHome (p : Path) : Job (Except StartError Path) := do
  match p.anchor, p.parts with
  | .relative, part :: rest =>
    if part = "~" then
      let home ← ownHome
      return .ok { home with parts := home.parts ++ rest }
    else if part.toList.head? = some '~' then return .error .noHome
    else return .ok p
  | _, _ => return .ok p

/-- The directory that a session starts in. -/
def startDirectory (o : StartOptions) : Job (Except StartError Path) :=
  match given? o.directory with
  | some path => canonicalOf (Path.ofString path)
  | none => ownDirectory

/-- The home of a session. -/
def startHome (o : StartOptions) : Job (Except StartError Path) := do
  match given? o.home with
  | none => return .ok (← ownHome)
  | some path =>
    match ← expandHome (Path.ofString path) with
    | .error e => return .error e
    | .ok path => canonicalOf path

/-- The search path of a session; empty entries are dropped. -/
def startSearchPath (o : StartOptions) : Job (List String) := do
  match o.searchPath with
  | some list => return list.filter (· ≠ "")
  | none => return (searchList ((← valueOf? "PATH").getD defaultSearchPath)).filter (· ≠ "")

end Start

/-- The context that a session starts with. -/
def Context.create (o : StartOptions) : Job (Except StartError Context) := do
  match ← Start.startDirectory o with
  | .error e => return .error e
  | .ok directory =>
    match ← Start.startHome o with
    | .error e => return .error e
    | .ok home =>
      let searchPath ← Start.startSearchPath o
      return .ok { directory, home, searchPath }

end Conch
