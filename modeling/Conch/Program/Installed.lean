-- SUMMARY: The installed programs.
import Conch.Program.Cat
import Conch.Program.Charset
import Conch.Program.Count
import Conch.Program.Directories
import Conch.Program.Echo
import Conch.Program.Edit
import Conch.Program.Ends
import Conch.Program.Env
import Conch.Program.Link
import Conch.Program.Move
import Conch.Program.Plain
import Conch.Program.Printf
import Conch.Program.Remove
import Conch.Program.Search
import Conch.Program.Sequence
import Conch.Program.Sort
import Conch.Program.Unique
import Conch.Script.Start

/-!
# Installed programs

Most programs do their work alone. Scripts and `env` start other programs, and
those may start others again, to a depth that is never reached.
-/

namespace Conch

namespace Programs

/-- A program that tells of trouble with its output in the usual way. -/
def plain (act : Act Nat) : Invocation → Job Ending := Act.start act {}

/-- The programs that start no others. -/
def alone : List (String × (Invocation → Job Ending)) :=
  [ ("cat", plain Cat.cat), ("head", plain Ends.head), ("tail", plain Ends.tail), ("wc", plain Count.wc),
    ("sort", Act.start Sorting.sort { code := 2 }), ("uniq", plain Unique.uniq), ("tr", plain Charset.tr),
    ("grep", Act.start Search.grep { code := 2 }),
    ("sed", Act.start Edit.sed Edit.closing),
    ("printf", plain Printf.printf), ("true", plain (return 0)), ("false", plain (return 1)),
    ("echo", plain Echo.echo), ("pwd", plain Plain.pwd), ("yes", plain Plain.yes), ("seq", plain Sequence.seq),
    ("mkdir", plain Directories.mkdir), ("rmdir", plain Directories.rmdir), ("rm", plain Remove.rm),
    ("mv", plain Move.mv), ("ln", plain Link.ln) ]

/-- The names of all programs. -/
def names : List String := ["sh", "env"] ++ alone.map (·.1)

/-- The programs, which start each other to a depth. -/
def toDepth : Nat → Programs
  | 0 => fun name => alone.lookup name
  | depth + 1 => fun name =>
    if name = "sh" then some (Script.sh (toDepth depth))
    else if name = "env" then some (Act.start (Env.env (toDepth depth)) { code := Env.canceled })
    else alone.lookup name

/-- The installed programs. -/
def installed : Programs := toDepth 100

end Programs

end Conch
