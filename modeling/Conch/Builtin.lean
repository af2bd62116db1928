-- SUMMARY: The built-in commands: exit, echo, type and cd.
import Conch.Lookup
import Conch.Streams
import Conch.Text.Numeral

/-!
# Built-in commands

Built-in commands run inside the interpreter. They ignore their input, but a `<`
file that cannot be opened fails the stage before anything else happens. A fault
on the way becomes one diagnostic and a failure status; if the reader of a pipe
has gone, the command ends quietly with the status of a process that such a
write kills.
-/

namespace Conch

/-- How a built-in command ends. -/
inductive BuiltinEnd where
  | status (code : Nat)
  /-- The session is asked to end with a code. -/
  | exitRequest (code : Nat)
  deriving DecidableEq, Repr

namespace Builtin

/-- The status of success. -/
def success : Nat := 0

/-- The status of failure. -/
def failure : Nat := 1

/-- The status for wrong use. -/
def usage : Nat := 2

/-- The status of a command whose output nobody reads any more. -/
def brokenPipe : Nat := 128 + 13

/-! ## exit -/

/-- The code that a number asks for: its remainder modulo 256, never negative. -/
def exitCode (n : Int) : Nat :=
  (n % 256).toNat

/-- Ask for the end of the session. -/
def runExit : List String → StageM BuiltinEnd
  | [] => return .exitRequest success
  | [arg] => do
    match integer? arg with
    | some n => return .exitRequest (exitCode n)
    | none =>
      Streams.error s!"exit: {arg}: numeric argument required"
      return .exitRequest usage
  | _ => do
    Streams.error "exit: too many arguments"
    return .status failure

/-! ## echo -/

/-- Write the arguments on a line, parted by single spaces. They are texts, so UTF-8 can encode the line. -/
def runEcho (args : List String) : StageM BuiltinEnd := do
  Streams.write (utf8Line (" ".intercalate args))
  return .status success

/-! ## type -/

/-- The kind of what a path leads to, or none if it leads nowhere. Trouble other than that is a fault. -/
def kindOf? (path : Path) : StageM (Option FileKind) := do
  if hasNul path.toString then return none
  match ← StageM.call (.stat FileSystem.root path.toString true) with
  | .ok kind => return some kind
  | .error cause =>
    if cause.meansAbsent then return none
    else throw (.system cause path.toString)

/-- Copy one file to the output, or tell why not. Gives whether it was copied. -/
def typeOne (ctx : Context) (name : String) : StageM Bool := do
  let path := ctx.resolve (Path.ofString name)
  match ← kindOf? path with
  | none =>
    Streams.error s!"type: {name}: No such file or directory"
    return false
  | some .dir =>
    Streams.error s!"type: {name}: Is a directory"
    return false
  | some _ =>
    match ← StageM.call (.fetch FileSystem.root path.toString) with
    | .error cause =>
      Streams.error s!"type: {name}: {cause.text}"
      return false
    | .ok data =>
      Streams.write data
      return true

/-- Copy files to the output, one after the other. Gives whether all were copied. -/
def typeAll (ctx : Context) : List String → StageM Bool
  | [] => return true
  | name :: rest => do
    let copied ← typeOne ctx name
    let others ← typeAll ctx rest
    return copied && others

/-- Copy the named files to the output; those that cannot be read are told and skipped. -/
def runType (ctx : Context) (args : List String) : StageM BuiltinEnd := do
  if args.isEmpty then
    Streams.error "type: missing operand"
    return .status failure
  else
    let copied ← typeAll ctx args
    return .status (if copied then success else failure)

/-! ## cd -/

/-- The directory that an operand of `cd` means. `~` is home, and `~/` leads from there. -/
def destination (ctx : Context) (target : String) : Path :=
  if target = "~" then ctx.home
  else
    match target.toList with
    | '~' :: '/' :: rest => ctx.resolve (ctx.home.join (Path.ofString (String.ofList rest)))
    | _ => ctx.resolve (Path.ofString target)

/-- Move to the directory that an operand means, and give the context after that. -/
def moveTo (ctx : Context) (target : String) : StageM (BuiltinEnd × Context) := do
  let path := destination ctx target
  match ← kindOf? path with
  | none =>
    Streams.error s!"cd: {target}: No such file or directory"
    return (.status failure, ctx)
  | some .dir => return (.status success, ctx.moveTo path)
  | some _ =>
    Streams.error s!"cd: {target}: Not a directory"
    return (.status failure, ctx)

/-- Move to another directory, home if none is named. -/
def runCd (ctx : Context) : List String → StageM (BuiltinEnd × Context)
  | [] => moveTo ctx "~"
  | [target] => moveTo ctx target
  | _ => do
    Streams.error "cd: too many arguments"
    return (.status failure, ctx)

/-! ## All of them -/

/-- What a built-in command does once its input is seen to be there. -/
def body (b : Builtin) (args : List String) (ctx : Context) : StageM (BuiltinEnd × Context) :=
  match b with
  | .exit => return (← runExit args, ctx)
  | .echo => return (← runEcho args, ctx)
  | .type => return (← runType ctx args, ctx)
  | .cd => runCd ctx args

/-- The diagnostic for a fault inside a built-in command. -/
def faultLine (b : Builtin) : Fault → String
  | f@(.system _ (some path)) => f.about s!"{b.name}: {path}"
  | f => f.about b.name

/-- Run a built-in command, and give the context after it. Only a fault in writing a
    diagnostic comes out. -/
def run (b : Builtin) (args : List String) (ctx : Context) : StageM (BuiltinEnd × Context) := do
  match ← StageM.attempt Streams.stdinHandle with
  | .error fault =>
    let name := ((← get).redirects.stdin).getD ""
    Streams.error (fault.about s!"{b.name}: {name}")
    return (.status failure, ctx)
  | .ok _ =>
    match ← StageM.attempt (body b args ctx) with
    | .ok result => return result
    | .error (.system .brokenPipe _) => return (.status brokenPipe, ctx)
    | .error fault =>
      Streams.error (faultLine b fault)
      return (.status failure, ctx)

end Builtin

end Conch
