-- SUMMARY: Becoming another program, found by its name.
import Conch.Program.Act

/-!
# Becoming another program

A name with a slash is a path. Any other name is looked for in the directories of
the search path. A file that is neither a program nor names an interpreter is taken
for a script of the shell.
-/

namespace Conch

namespace Execution

/-- The search path where no variable gives one. -/
def defaultPath : Raw := "/bin:/usr/bin"

/-- The interpreter of files that name none. -/
def shellPath : Raw := "/bin/sh"

/-- Start a file, as a script of the shell if it is nothing else. -/
def startOrInterpret (programs : Programs) (path : Raw) (call : Invocation) :
    Job (Except Errno (Job Ending)) := do
  match ← startFile programs path call with
  | .error .execFormat =>
    startFile programs shellPath { call with name := shellPath, args := path :: call.args }
  | result => return result

/-- Whether the search goes on after a file could not be started. -/
def isPassedOver : Errno → Bool
  | .noEntry | .notDirectory | .accessDenied => true
  | _ => false

/-- Start the first of some files that can be. -/
def startFirst (programs : Programs) (call : Invocation) (denied : Bool) :
    List Raw → Job (Except Errno (Job Ending))
  | [] => return .error (if denied then .accessDenied else .noEntry)
  | path :: rest => do
    match ← startOrInterpret programs path call with
    | .error e =>
      if isPassedOver e then startFirst programs call (denied || e = .accessDenied) rest
      else return .error e
    | result => return result

/-- Start a program by the name in an invocation. -/
def start (programs : Programs) (call : Invocation) : Job (Except Errno (Job Ending)) := do
  if call.name.isEmpty then return .error .noEntry
  else if call.name.toList.contains '/' then startOrInterpret programs call.name call
  else if FileSystem.maxName < call.name.length then return .error .nameTooLong
  else
    let path := (call.environment.lookup "PATH").getD defaultPath
    startFirst programs call false
      ((path.splitOn ":").map fun dir => if dir.isEmpty then call.name else dir ++ "/" ++ call.name)

end Execution

end Conch
