-- SUMMARY: From a line, or from words, to a command.
import Conch.Command
import Conch.Segment
import Conch.Token

/-!
# Reading commands

A line is split at its active pipes first, then each segment into words, then
the words of each segment are read as a stage: an executable, arguments, and
redirections in any order. Of several redirections of one stream the last one
counts. `parse` starts from a line and `build` from words.
-/

namespace Conch

/-! ## Errors -/

/-- A stage's place in a pipeline, in messages. -/
inductive Place where
  | first
  | last
  deriving DecidableEq, Repr

/-- The name of a place in a message. -/
def Place.name : Place → String
  | .first => "first"
  | .last => "last"

/-- Why words are not a command. -/
inductive BuildError where
  | emptyInput
  | invalidExecutable (op : Operator)
  | danglingRedirection (op : Operator)
  | emptyTarget (op : Operator)
  | emptySegment
  /-- The operator is allowed on the stage at the given place only. -/
  | misplaced (op : Operator) (place : Place)
  deriving DecidableEq, Repr

/-- The message for words that are not a command. -/
def BuildError.message : BuildError → String
  | .emptyInput => "empty command"
  | .invalidExecutable op => s!"redirection operator '{op.text}' cannot be used as a command"
  | .danglingRedirection op => s!"redirection operator '{op.text}' has no target filename"
  | .emptyTarget op => s!"redirection operator '{op.text}' has an empty filename"
  | .emptySegment => "empty command segment in pipeline"
  | .misplaced op place =>
    s!"redirection operator '{op.text}' is only allowed on the {place.name} pipeline stage"

/-- Why a line or a list of words is not a command. -/
inductive CommandError where
  | lex (e : LexError)
  | build (e : BuildError)
  | construct (e : ConstructError)
  deriving DecidableEq, Repr

/-- The message for a line or a list of words that is not a command. -/
def CommandError.message : CommandError → String
  | .lex e => e.message
  | .build e => e.message
  | .construct e => e.message

/-! ## Stages -/

/-- What may follow the executable of a stage. -/
inductive Item where
  | arg (word : String)
  | redirect (op : Operator) (file : String)
  deriving DecidableEq, Repr

/-- Read the words after the executable, each operator with the word after it. -/
def items : List String → Except BuildError (List Item)
  | [] => .ok []
  | word :: rest =>
    match Operator.ofText? word with
    | none => (items rest).map (.arg word :: ·)
    | some op =>
      match rest with
      | [] => .error (.danglingRedirection op)
      | file :: rest =>
        if file = "" then .error (.emptyTarget op)
        else (items rest).map (.redirect op file :: ·)

/-- Bind one more stream. A later output file replaces an earlier one together with its mode. -/
def Redirects.bindTo (r : Redirects) : Operator → String → Redirects
  | .input, file => { r with stdin := some file }
  | .output, file => { r with stdout := some file, append := false }
  | .append, file => { r with stdout := some file, append := true }
  | .errors, file => { r with stderr := some file }

/-- The arguments among some items, in order. -/
def argsOf (items : List Item) : List String :=
  items.filterMap fun
    | .arg word => some word
    | .redirect _ _ => none

/-- The redirections among some items; none at all if no item redirects. -/
def redirectsOf (items : List Item) : Option Redirects :=
  items.foldl (fun acc item =>
    match item with
    | .arg _ => acc
    | .redirect op file => some ((acc.getD {}).bindTo op file)) none

/-- Read the words of one stage. -/
def parseStage : List String → Except CommandError Stage
  | [] => .error (.build .emptyInput)
  | executable :: rest =>
    match Operator.ofText? executable with
    | some op => .error (.build (.invalidExecutable op))
    | none =>
      match items rest with
      | .error e => .error (.build e)
      | .ok found => (Stage.make executable (argsOf found) (redirectsOf found)).mapError .construct

/-! ## Pipelines -/

/-- What is misplaced on one stage of a pipeline, a misplaced `<` before a misplaced `>`. -/
def misplacedOn (isFirst isLast : Bool) (s : Stage) : Option BuildError :=
  if !isFirst && s.stdin?.isSome then some (.misplaced .input .first)
  else if !isLast && s.stdout?.isSome then
    some (.misplaced (if s.appends then .append else .output) .last)
  else none

/-- The leftmost misplaced redirection of the rest of a pipeline. -/
def misplacedFrom (isFirst : Bool) : List Stage → Option BuildError
  | [] => none
  | s :: rest =>
    match misplacedOn isFirst rest.isEmpty s with
    | some e => some e
    | none => misplacedFrom false rest

/-- The leftmost misplaced redirection of a pipeline. -/
def misplaced (stages : List Stage) : Option BuildError :=
  misplacedFrom true stages

/-- A pipeline from the words of its stages. -/
def assemble (groups : List (List String)) : Except CommandError Command := do
  let stages ← groups.mapM parseStage
  match misplaced stages with
  | some e => throw (.build e)
  | none =>
    match Pipeline.ofStages stages with
    | .error e => throw (.construct e)
    | .ok pipeline => return .pipeline pipeline

/-- The words of one segment of a pipeline; there must be some. -/
def segmentWords (segment : String) : Except CommandError (List String) :=
  if trim segment = "" then .error (.build .emptySegment)
  else
    match tokenize segment with
    | .error e => .error (.lex e)
    | .ok [] => .error (.build .emptySegment)
    | .ok words => .ok words

/-! ## Lines and words -/

/-- Read a line as a command. -/
def parse (line : String) : Except CommandError Command :=
  match segments line with
  | [_] =>
    match tokenize line with
    | .error e => .error (.lex e)
    | .ok [] => .error (.build .emptyInput)
    | .ok words => (parseStage words).map .stage
  | several => do
    let groups ← several.mapM segmentWords
    assemble groups

/-- The groups of words between the words that are a pipe; there is always one. -/
def groupsOf : List String → List (List String)
  | [] => [[]]
  | word :: rest =>
    if word = "|" then [] :: groupsOf rest
    else
      match groupsOf rest with
      | [] => [[word]]
      | group :: groups => (word :: group) :: groups

/-- Read words as a command. A word that is a pipe parts two stages, quoted or not. -/
def build (words : List String) : Except CommandError Command :=
  if words.isEmpty then .error (.build .emptyInput)
  else
    match groupsOf words with
    | [group] => (parseStage group).map .stage
    | groups =>
      if groups.any List.isEmpty then .error (.build .emptySegment)
      else assemble groups

/-- Read a line as a command, without regard to the blanks at its ends. -/
def parseTrimmed (line : String) : Except CommandError Command :=
  parse (trim line)

end Conch
