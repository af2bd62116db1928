-- SUMMARY: The interpreter as a program: its command line, and the loop that reads lines.
import Conch.Command.Tree
import Conch.Interpreter
import Conch.Options
import Conch.Session.Start

/-!
# The loop

Started without a line to run, the interpreter asks for lines until there are no
more or one asks for the end. An interrupt at the prompt and a blank line change
nothing. A fault that comes out of a line is told and counts as a failure, so a
line never ends the loop unless it asks to.
-/

namespace Conch

/-- What happens at the prompt. When there is nothing more, the input has ended. -/
inductive Event where
  | line (text : String)
  | interrupt
  deriving DecidableEq, Repr

/-- What running the interpreter as a program comes to. -/
inductive ProgramEnd where
  | status (code : Nat)
  /-- The command line was answered and nothing ran. -/
  | answered (code : Nat)
  | notStarted (e : StartError)
  /-- There was no line to show the tree of. -/
  | noLine
  deriving DecidableEq, Repr

namespace Repl

/-- What is shown before a line is read. -/
def prompt : String := "$ "

/-- Write a text to the console. -/
def print (text : String) (w : World) : World :=
  { w with out := w.out ++ utf8 text }

/-- Show the tree of a line's command, if the line is one. -/
def showTree (line : String) (w : World) : World :=
  match parseTrimmed line with
  | .ok c => Interpreter.complain c.tree w
  | .error _ => w

/-- What a line came to in the loop: a status to go on with, or a code to end with. -/
inductive LineEnd where
  | status (code : Nat)
  | exit (code : Nat)
  deriving DecidableEq, Repr

/-- Tell of trouble that is no command's own. -/
def complain (text : String) (w : World) : World :=
  Interpreter.complain s!"[execution error] {text}" w

/-- Run one line. A fault is told and counts as a failure. -/
def runLine (programs : Programs) (debug : Bool) (ctx : Context) (line : String) (w : World) :
    (LineEnd × Context) × World :=
  let w := if debug then showTree line w else w
  let ((outcome, ctx), w) := Interpreter.runLine programs ctx line w
  match outcome with
  | .status code => ((.status code, ctx), w)
  | .exit code => ((.exit code, ctx), w)
  | .failed fault =>
    ((.status Builtin.failure, ctx), complain fault.message w)

/-- What the loop carries from one line to the next. -/
structure State where
  context : Context
  /-- The status of the last line that was run. -/
  status : Nat := 0
  world : World

/-- What comes after an event: the next prompt, or the end with a code. -/
inductive Turn where
  | next (s : State)
  | leave (code : Nat) (w : World)

/-- Show the prompt. -/
def State.ask (s : State) : State :=
  { s with world := print prompt s.world }

/-- End the line that the prompt stands on. -/
def State.endLine (s : State) : State :=
  { s with world := print "\n" s.world }

/-- Answer what happens at the prompt. -/
def State.respond (programs : Programs) (debug : Bool) (s : State) : Event → Turn
  | .interrupt => .next s.endLine
  | .line text =>
    let line := trim text
    if line = "" then .next s
    else
      match runLine programs debug s.context line s.world with
      | ((.exit code, _), w) => .leave code w
      | ((.status code, ctx), w) => .next ⟨ctx, code, w⟩

/-- Ask for and answer events until there are no more or a line asks for the end. Gives that
    line's code or the last status. -/
def loop (programs : Programs) (debug : Bool) (s : State) : List Event → Nat × World
  | [] => (s.status, s.ask.endLine.world)
  | event :: rest =>
    match s.ask.respond programs debug event with
    | .next s => loop programs debug s rest
    | .leave code w => (code, w)

/-- What is told about a line that was asked for and is not there. -/
def noLineText : String := "'list' object has no attribute 'strip'"

/-- Run the interpreter with options: a single line, or the loop. -/
def runWith (programs : Programs) (o : Options) (events : List Event) (w : World) : ProgramEnd × World :=
  match (Context.create { directory := o.directory }).run w with
  | (.error e, w) => (.notStarted e, w)
  | (.ok context, w) =>
    match o.command with
    | some .dropped =>
      if o.debug then (.noLine, w) else (.status Builtin.failure, complain noLineText w)
    | some (.text line) =>
      match runLine programs o.debug context line w with
      | ((.exit code, _), w) => (.status code, w)
      | ((.status code, _), w) => (.status code, w)
    | none =>
      let (status, w) := loop programs o.debug { context, world := w } events
      (.status status, w)

/-- Run the interpreter as a program. -/
def run (programs : Programs) (words : List String) (events : List Event) (w : World) : ProgramEnd × World :=
  match Options.parse words with
  | .help => (.answered 0, print Options.helpText w)
  | .wrong message => (.answered 2, { w with err := w.err ++ utf8 (Options.wrongText message) })
  | .run o => runWith programs o events w

end Repl

end Conch
