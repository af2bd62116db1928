-- SUMMARY: The interpreter on the command line, on a fresh machine of its own.
import Conch.Program.Installed
import Conch.Repl
import Conch.Session.Machine

/-!
# The command line

The interpreter runs on a fresh machine that lives as long as it does. Lines come
from the standard input, and what went to the machine's console is passed on
after each of them.
-/

namespace Conch

namespace Console

/-- The machine at the start, with the root directory as the interpreter's own. -/
def machine : World :=
  { files := Machine.fresh Programs.names
    environment := [("HOME", "/root"), ("PATH", "/usr/bin:/bin")] }

/-- Pass on what went to the machine's console. -/
def flush (w : World) : IO World := do
  for (stream, bytes) in [(← IO.getStdout, w.out), (← IO.getStderr, w.err)] do
    stream.write bytes.toByteArray
    stream.flush
  return { w with out := [], err := [] }

/-- Ask for lines and run them until there are no more or one asks for the end. -/
partial def interact (debug : Bool) (s : Repl.State) : IO Nat := do
  let world ← flush s.ask.world
  let s := { s with world }
  let line ← (← IO.getStdin).getLine
  if line.isEmpty then
    let _ ← flush s.endLine.world
    return s.status
  match s.respond Programs.installed debug (.line line) with
  | .next s => interact debug { s with world := ← flush s.world }
  | .leave code w =>
    let _ ← flush w
    return code

/-- Run the interpreter with options. -/
def runWith (o : Options) : IO Nat := do
  match o.command, (Context.create { directory := o.directory }).run machine with
  | none, (.ok context, world) => interact o.debug { context, world }
  | _, _ =>
    let (ending, w) := Repl.runWith Programs.installed o [] machine
    let _ ← flush w
    match ending with
    | .status code | .answered code => return code
    | .notStarted e =>
      (← IO.getStderr).putStrLn e.message
      return 1
    | .noLine =>
      (← IO.getStderr).putStrLn Repl.noLineText
      return 1

end Console

end Conch

/-- Run the interpreter. -/
def main (args : List String) : IO UInt32 := do
  match Conch.Options.parse args with
  | .run o => return (← Conch.Console.runWith o).toUInt32
  | _ =>
    let (ending, w) := Conch.Repl.run Conch.Programs.installed args [] Conch.Console.machine
    let _ ← Conch.Console.flush w
    match ending with
    | .status code | .answered code => return code.toUInt32
    | .notStarted _ | .noLine => return 1
