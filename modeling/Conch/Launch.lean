-- SUMMARY: Starting a stage as a child process, with its files opened first.
import Conch.Builtin
import Conch.Program

/-!
# Launching

A stage that is a program becomes a child process in the session's directory.
Its files are opened first: the one for diagnostics, then input, then output, so
that a failure to open the others can be told where diagnostics go. If anything
fails there is no process, and the stage has a status all the same.
-/

namespace Conch

/-- Why a stage has no process: the diagnostic and the status. -/
structure LaunchError where
  message : String
  status : Nat
  deriving DecidableEq, Repr

namespace Launch

/-- The status of a program that is there but cannot be run. -/
def cannotExecute : Nat := 126

/-- The status of a command that is not there. -/
def notFound : Nat := 127

/-- The diagnostic for a command that is not there. -/
def notFoundLine (s : Stage) : String :=
  s!"{s.executable}: command not found"

/-- The status for a fault in starting a process. -/
def faultStatus : Fault → Nat
  | .system .noEntry _ => notFound
  | _ => cannotExecute

/-- The process of a stage with given streams: arguments are checked first, then the session's
    directory, then the program. -/
def child (programs : Programs) (ctx : Context) (s : Stage) (path : Path)
    (stdin : Source) (stdout stderr : Sink) : Job (Except Fault (Job Ending)) := do
  if s.args.any hasNul then return .error .nul
  match ← Job.call (.enter FileSystem.root ctx.directory.toString) with
  | .error e => return .error (.system e ctx.directory.toString)
  | .ok directory =>
    let environment := (← Job.call .environment).map fun v => (Raw.encode v.1, Raw.encode v.2)
    let name := Raw.encode path.toString
    match ← startFile programs name
      { name, args := s.args.map Raw.encode, directory, environment, stdin, stdout, stderr } with
    | .error e => return .error (.system e path.toString)
    | .ok job => return .ok job

/-- Open the files of a stage and start its process. `stdin` and `stdout` are used where the stage
    has no file. -/
def launch (programs : Programs) (ctx : Context) (s : Stage) (path : Path)
    (stdin : Source) (stdout : Sink) : StageM (Except LaunchError (Job Ending)) := do
  let errors ← Streams.stderrHandle
  match ← StageM.attempt Streams.stdinHandle with
  | .error fault =>
    return .error ⟨fault.about (s.executable ++ ": " ++ s.stdin?.getD ""), Builtin.failure⟩
  | .ok input =>
    match ← StageM.attempt Streams.stdoutHandle with
    | .error fault =>
      return .error ⟨fault.about (s.executable ++ ": " ++ s.stdout?.getD ""), Builtin.failure⟩
    | .ok output =>
      let job ← liftM (child programs ctx s path
        ((input.map Source.file).getD stdin)
        ((output.map Sink.file).getD stdout)
        ((errors.map Sink.file).getD .err))
      match job with
      | .error fault => return .error ⟨fault.about s.executable, faultStatus fault⟩
      | .ok job => return .ok job

end Launch

end Conch
