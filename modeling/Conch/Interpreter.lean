-- SUMMARY: The interpreter: from a line to its outcome.
import Conch.Command.Parser
import Conch.Pipeline.Run

/-!
# The interpreter

A line is read as a command and the command is run. A line that is no command is
told on the console and nothing runs. The outcome is a status, a request to end
the session, or a fault that could not be told.
-/

namespace Conch

namespace Interpreter

/-- The name under which the interpreter speaks. -/
def programName : String := "minishell"

/-- The status of a line that is no command. -/
def syntaxStatus : Nat := 2

/-- Write a line to the console as a diagnostic. -/
def complain (text : String) (w : World) : World :=
  { w with err := w.err ++ utf8Line text }

/-- Run a command, and give the context after it. -/
def execute (programs : Programs) (ctx : Context) (c : Command) (w : World) :
    (Outcome × Context) × World :=
  match c with
  | .stage s => (s.run programs ctx).run w
  | .pipeline p =>
    let (outcome, w) := p.run programs ctx w
    ((outcome, ctx), w)

/-- Read a line and run it, and give the context after it. -/
def runLine (programs : Programs) (ctx : Context) (line : String) (w : World) :
    (Outcome × Context) × World :=
  match parseTrimmed line with
  | .error e => ((.status syntaxStatus, ctx), complain s!"{programName}: {e.message}" w)
  | .ok c => execute programs ctx c w

end Interpreter

end Conch
