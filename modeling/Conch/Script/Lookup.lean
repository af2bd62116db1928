-- SUMMARY: What the name of a command stands for, and the built-in commands that tell.
import Conch.Program.Execution
import Conch.Script.Options

/-!
# Names of commands

A name with a slash is a path. Any other name may be that of a function, a built-in
command, or a program in one of the directories of the search path. Where a program was
found is kept until the search path changes.
-/

namespace Conch

namespace Script

/-- The built-in commands that are not special. -/
def regularNames : List Raw :=
  ["[", "alias", "bg", "cd", "chdir", "command", "echo", "false", "fg", "getopts", "hash", "jobs", "kill", "printf",
    "pwd", "read", "test", "true", "type", "ulimit", "umask", "unalias", "wait"]

/-- Whether a name is that of a built-in command. -/
def isBuiltin (name : Raw) : Bool := specialNames.contains name || regularNames.contains name

/-- The search path if no variable gives one. -/
def standardPath : Raw := "/usr/local/sbin:/usr/local/bin:/usr/sbin:/usr/bin:/sbin:/bin"

/-- The search path. -/
def Shell.searchPath (s : Shell) : Raw := (s.value? "PATH").getD standardPath

/-- The paths that a name may have in the directories of a search path. -/
def candidates (path name : Raw) : List Raw :=
  (path.splitOn ":").map fun dir => if dir.isEmpty then name else dir ++ "/" ++ name

/-- The first of some paths that leads to a program, or why there is none. -/
def firstProgram (directory : Ino) : List Raw → Errno → Job (Except Errno Raw)
  | [], e => return .error e
  | path :: rest, e => do
    match ← Job.call (.stat directory (Raw.decode path) true) with
    | .ok kind => if kind.isRunnable then return .ok path else firstProgram directory rest .accessDenied
    | .error .noEntry | .error .notDirectory => firstProgram directory rest e
    | .error e => firstProgram directory rest e

/-- Find a program in a search path. -/
def findIn (path name : Raw) : ShellM (Except Errno Raw) := do
  liftM (firstProgram (← get).directory (candidates path name) .noEntry)

/-- Find a program by its name, and keep where it is. -/
def findProgram (name : Raw) : ShellM (Except Errno Raw) := do
  let s ← get
  match s.places.lookup name with
  | some path =>
    match ← call (.stat s.directory (Raw.decode path) true) with
    | .ok kind => if kind.isRunnable then return .ok path
    | .error _ => pure ()
  | none => pure ()
  match ← findIn s.searchPath name with
  | .ok path =>
    modify fun s => { s with places := s.places.filter (·.1 ≠ name) ++ [(name, path)] }
    return .ok path
  | .error e => return .error e

/-- What is told of a program that cannot be found or started. -/
def startText : Errno → Raw
  | .noEntry | .notDirectory => "not found"
  | e => e.text

/-- Show an alias. -/
def aliasText (name value : Raw) : Raw := name ++ "=" ++ quoted value ++ "\n"

/-- Tell what a name stands for. With `isLong`, in a sentence; a search path may be given. -/
def describe (isLong : Bool) (path : Option Raw) (name : Raw) : ShellM Nat := do
  let s ← get
  let tell (long short : Raw) : ShellM Nat := do
    put ((if isLong then name ++ long else short) ++ "\n")
    return 0
  if keywords.contains name then tell " is a shell keyword" name
  else
    match s.aliases.lookup name with
    | some value =>
      if isLong then tell (" is an alias for " ++ value) ""
      else
        put ("alias " ++ aliasText name value)
        return 0
    | none =>
      let missing : ShellM Nat := do
        if isLong then put (name ++ ": not found\n")
        return 127
      if name.toList.contains '/' then
        match ← call (.stat s.directory (Raw.decode name) true) with
        | .ok _ => tell (" is " ++ name) name
        | .error _ => missing
      else if (s.functions.lookup name).isSome then tell " is a shell function" name
      else if specialNames.contains name then tell " is a special shell builtin" name
      else if regularNames.contains name then tell " is a shell builtin" name
      else
        match path, s.places.lookup name with
        | none, some place => tell (" is a tracked alias for " ++ place) place
        | none, none =>
          match ← findProgram name with
          | .ok place => tell (" is " ++ place) place
          | .error _ => missing
        | some path, _ =>
          match ← findIn path name with
          | .ok place => tell (" is " ++ place) place
          | .error _ => missing

/-- Tell what names stand for. -/
def typeOf (args : List Raw) : ShellM Nat := do
  let codes ← args.mapM (describe true none)
  return codes.foldl (fun all code => all ||| code) 0

/-- Tell what a name stands for, as the options ask. -/
def describeCommand (args : List Raw) : ShellM Nat := do
  let (options, operands) ← takeOptions "pvV" args
  let path := if options.any (·.1 = 'p') then some standardPath else none
  match operands with
  | name :: _ =>
    if options.any (·.1 = 'V') then describe true path name
    else if options.any (·.1 = 'v') then describe false path name
    else return 0
  | [] => return 0

/-- The row in which the place of a program is kept. -/
def placeRow (name : Raw) : Nat :=
  let cs := name.toList.map Char.toNat
  ((cs.headD 0 * 16 + cs.foldl (· + ·) 0) % 32768) % 31

/-- Show, forget or find where programs are. -/
def hash (args : List Raw) : ShellM Nat := do
  let (options, names) ← takeOptions "r" args
  if !options.isEmpty then
    modify fun s => { s with places := [] }
    return 0
  match names with
  | [] =>
    let places := (← get).places
    (List.range 31).forM fun row =>
      places.forM fun (name, path) => if placeRow name = row then put (path ++ "\n") else return ()
    return 0
  | names =>
    let found ← names.mapM fun name => do
      modify fun s => { s with places := s.places.filter (·.1 ≠ name) }
      let s ← get
      if name.toList.contains '/' || (s.functions.lookup name).isSome || isBuiltin name then return true
      match ← findProgram name with
      | .ok _ => return true
      | .error e =>
        complain (name ++ ": " ++ startText e)
        return false
    return if found.all id then 0 else 1

/-! ## Aliases -/

/-- The row in which an alias is kept. -/
def aliasRow (name : Raw) : Nat :=
  let cs := name.toList.map Char.toNat
  (cs.headD 0 * 16 + cs.foldl (· + ·) 0) % 39

/-- Show or set aliases. -/
def setAliases (args : List Raw) : ShellM Nat := do
  match args with
  | [] =>
    let aliases := (← get).aliases
    (List.range 39).forM fun row =>
      aliases.forM fun (name, value) => if aliasRow name = row then put (aliasText name value) else return ()
    return 0
  | words =>
    let good ← words.mapM fun word => do
      let name := String.ofList (word.toList.takeWhile (· ≠ '='))
      let s ← get
      if name.length = word.length || name.isEmpty then
        match s.aliases.lookup word with
        | some value =>
          put (aliasText word value)
          return true
        | none =>
          putError ("alias: " ++ word ++ " not found\n")
          return false
      else
        let value := String.ofList (word.toList.drop (name.length + 1))
        let aliases := if (s.aliases.lookup name).isSome then
            s.aliases.map fun a => if a.1 = name then (name, value) else a
          else s.aliases ++ [(name, value)]
        set { s with aliases }
        return true
    return if good.all id then 0 else 1

/-- Take aliases away. -/
def dropAliases (args : List Raw) : ShellM Nat := do
  let (options, names) ← takeOptions "a" args
  if !options.isEmpty then
    modify fun s => { s with aliases := [] }
    return 0
  let good ← names.mapM fun name => do
    let s ← get
    if (s.aliases.lookup name).isSome then
      set { s with aliases := s.aliases.filter (·.1 ≠ name) }
      return true
    else
      putError ("unalias: " ++ name ++ " not found\n")
      return false
  return if good.all id then 0 else 1

end Script

end Conch
