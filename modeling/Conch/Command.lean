-- SUMMARY: Commands: stages with their redirections, and pipelines of stages.
import Conch.Text.Quoted

/-!
# Commands

A stage names what to run, its arguments and, if it redirects, the files its
standard streams are bound to. A command is one stage or a pipeline of several.

What a command must satisfy is part of its type: the executable is a proper
name, a pipeline has at least two stages, only its first stage reads from a file
and only its last stage writes its output to one. `Stage.make` and
`Pipeline.ofStages` build values from parts and say what is wrong otherwise.
-/

namespace Conch

/-! ## Redirection operators -/

/-- The operators that bind a standard stream to the file named next. -/
inductive Operator where
  | input
  | output
  | append
  | errors
  deriving DecidableEq, Repr

namespace Operator

/-- How an operator is written. -/
def text : Operator → String
  | input => "<"
  | output => ">"
  | append => ">>"
  | errors => "2>"

/-- The operator that a word writes, if it is one. -/
def ofText? (word : String) : Option Operator :=
  if word = "<" then some input
  else if word = ">" then some output
  else if word = ">>" then some append
  else if word = "2>" then some errors
  else none

end Operator

/-! ## Stages -/

/-- The files that the standard streams of a stage are bound to. `append` is about
    the output file only: the file for diagnostics is always emptied first. -/
structure Redirects where
  stdin : Option String := none
  stdout : Option String := none
  stderr : Option String := none
  append : Bool := false
  deriving DecidableEq, Repr

/-- A name that can be run: not empty, and not a redirection operator. -/
def IsExecutableName (name : String) : Prop :=
  name ≠ "" ∧ Operator.ofText? name = none

instance (name : String) : Decidable (IsExecutableName name) :=
  inferInstanceAs (Decidable (_ ∧ _))

/-- One invocation. A stage without redirections differs from one whose
    redirections are all absent, though both run alike. -/
structure Stage where
  executable : String
  args : List String
  redirects : Option Redirects
  executable_ok : IsExecutableName executable
  deriving DecidableEq, Repr

namespace Stage

/-- The file that standard input is read from. -/
def stdin? (s : Stage) : Option String := s.redirects.bind (·.stdin)

/-- The file that standard output is written to. -/
def stdout? (s : Stage) : Option String := s.redirects.bind (·.stdout)

/-- The file that diagnostics are written to. -/
def stderr? (s : Stage) : Option String := s.redirects.bind (·.stderr)

/-- Whether the output file keeps what it holds. -/
def appends (s : Stage) : Bool := (s.redirects.map (·.append)).getD false

end Stage

/-! ## Pipelines and commands -/

/-- Only the first stage reads from a file and only the last writes to one. -/
def Placed (stages : List Stage) : Prop :=
  (∀ s ∈ stages.drop 1, s.stdin? = none) ∧ (∀ s ∈ stages.dropLast, s.stdout? = none)

instance (stages : List Stage) : Decidable (Placed stages) :=
  inferInstanceAs (Decidable (_ ∧ _))

/-- Two or more stages, the output of each feeding the input of the next. -/
structure Pipeline where
  stages : List Stage
  two_le : 2 ≤ stages.length
  placed : Placed stages
  deriving DecidableEq, Repr

/-- What a line asks for. -/
inductive Command where
  | stage (s : Stage)
  | pipeline (p : Pipeline)
  deriving DecidableEq, Repr

/-- The stages of a command, in order. -/
def Command.stages : Command → List Stage
  | .stage s => [s]
  | .pipeline p => p.stages

/-! ## Building commands from parts -/

/-- Why some parts are not a command. -/
inductive ConstructError where
  | emptyExecutable
  | operatorExecutable (op : Operator)
  | tooFewStages
  /-- A stage of a pipeline is something else, described by the given text. -/
  | notAStage (description : String)
  | inputNotFirst
  | outputNotLast
  deriving DecidableEq, Repr

/-- The message for parts that are not a command. -/
def ConstructError.message : ConstructError → String
  | .emptyExecutable => "Command executable must not be empty."
  | .operatorExecutable op =>
    "Redirection operator " ++ quoted op.text ++ " cannot be an executable."
  | .tooFewStages => "A pipeline needs at least two stages."
  | .notAStage description =>
    s!"Pipeline stage must be a simple or redirected command, got {description}."
  | .inputNotFirst => "Only the first pipeline stage may redirect stdin."
  | .outputNotLast => "Only the last pipeline stage may redirect stdout."

/-- A stage from its parts, if the executable is a proper name. -/
def Stage.make (executable : String) (args : List String) (redirects : Option Redirects) :
    Except ConstructError Stage :=
  if empty : executable = "" then .error .emptyExecutable
  else
    match operator : Operator.ofText? executable with
    | some op => .error (.operatorExecutable op)
    | none => .ok ⟨executable, args, redirects, empty, operator⟩

/-- A pipeline from its stages, if there are enough and each redirects only what
    its place allows. -/
def Pipeline.ofStages (stages : List Stage) : Except ConstructError Pipeline :=
  if enough : 2 ≤ stages.length then
    if first : ∀ s ∈ stages.drop 1, s.stdin? = none then
      if last : ∀ s ∈ stages.dropLast, s.stdout? = none then
        .ok ⟨stages, enough, first, last⟩
      else .error .outputNotLast
    else .error .inputNotFirst
  else .error .tooFewStages

end Conch
