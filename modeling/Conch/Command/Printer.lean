-- SUMMARY: From a command back to a line, and which commands have one.
import Conch.Command

/-!
# Writing commands

A command is written with a backslash before every character of its words, so
that nothing in them means anything, and with its operators bare. Redirections
come after the arguments, and stages are parted by pipes.

Not every command has a line: a word that comes out empty is dropped when a line
is read, an argument is never an operator, and a redirected stage redirects
something. The others are canonical.
-/

namespace Conch

/-! ## Canonical commands -/

/-- A word that is not empty, as a file name has to be. -/
def IsWord (word : String) : Prop := word ≠ ""

/-- A word that is an argument where it stands. -/
def IsArgument (word : String) : Prop :=
  IsWord word ∧ Operator.ofText? word = none

/-- Redirections that a line can ask for: of one stream at least, to named files, and with a mode
    only if there is an output file. -/
structure Redirects.IsCanonical (r : Redirects) : Prop where
  some_stream : r.stdin.isSome ∨ r.stdout.isSome ∨ r.stderr.isSome
  stdin_word : ∀ file ∈ r.stdin, IsWord file
  stdout_word : ∀ file ∈ r.stdout, IsWord file
  stderr_word : ∀ file ∈ r.stderr, IsWord file
  append_output : r.append = true → r.stdout.isSome

/-- A stage that a line can ask for. -/
structure Stage.IsCanonical (s : Stage) : Prop where
  args : ∀ arg ∈ s.args, IsArgument arg
  redirects : ∀ r ∈ s.redirects, r.IsCanonical

/-- A command that a line can ask for. -/
def Command.IsCanonical (c : Command) : Prop :=
  ∀ s ∈ c.stages, s.IsCanonical

/-! ## Writing -/

/-- A word with a backslash before each of its characters. -/
def escaped (word : String) : String :=
  String.ofList (word.toList.flatMap fun c => ['\\', c])

/-- A redirection, if there is one: the operator, and the file name as a word. -/
def renderRedirect (op : Operator) (file : Option String) : List String :=
  file.toList.flatMap fun name => [op.text, escaped name]

/-- The words that redirections are written with. -/
def Redirects.render (r : Redirects) : List String :=
  renderRedirect .input r.stdin ++
    renderRedirect (if r.append then .append else .output) r.stdout ++
    renderRedirect .errors r.stderr

/-- The words that a stage is written with. -/
def Stage.words (s : Stage) : List String :=
  escaped s.executable :: s.args.map escaped ++ (s.redirects.map Redirects.render).getD []

/-- A stage as text. -/
def Stage.render (s : Stage) : String :=
  " ".intercalate s.words

/-- A command as a line. -/
def Command.render (c : Command) : String :=
  "|".intercalate (c.stages.map Stage.render)

end Conch
