-- SUMMARY: Drafts of commands, which need not be well formed, and what building them gives.
import Conch.Command

/-!
# Drafts

A draft describes a command from outside, with nothing checked: a pipeline of
drafts may hold one stage, another pipeline, or things that are no command at
all. Building works from the inside out and from left to right, so the first
thing wrong in that order is reported.
-/

namespace Conch

/-- A description of a command, or of something that stands where one should. -/
inductive Draft where
  | simple (executable : String) (args : List String)
  | redirected (executable : String) (args : List String) (redirects : Redirects)
  | pipeline (stages : List Draft)
  | nothing
  | truth (value : Bool)
  | number (value : Int)
  | text (value : String)
  deriving Repr, Inhabited

/-- What a draft turns out to be. -/
inductive Built where
  | command (c : Command)
  | other (description : String)

/-! ## Descriptions -/

/-- The name of the kind of a stage in descriptions. -/
def Stage.kindName (s : Stage) : String :=
  if s.redirects.isSome then "RedirectedCommand" else "SimpleCommand"

/-- A sequence in round brackets; a single element keeps a comma behind it. -/
def describeTuple : List String → String
  | [] => "()"
  | [x] => s!"({x},)"
  | xs => "(" ++ ", ".intercalate xs ++ ")"

/-- An optional file name in a description. -/
def describeFile : Option String → String
  | none => "None"
  | some name => quoted name

/-- A truth value in a description. -/
def describeBool (b : Bool) : String :=
  if b then "True" else "False"

/-- A stage with all its fields, on one line. -/
def Stage.describe (s : Stage) : String :=
  let args := describeTuple (s.args.map quoted)
  let fields := "executable=" ++ quoted s.executable ++ ", args=" ++ args
  match s.redirects with
  | none => s!"{s.kindName}({fields})"
  | some r =>
    let files := "stdin_file=" ++ describeFile r.stdin ++ ", stdout_file=" ++ describeFile r.stdout ++
      ", stderr_file=" ++ describeFile r.stderr ++ ", append=" ++ describeBool r.append
    s!"{s.kindName}({fields}, {files})"

/-- A command with all its fields, on one line. -/
def Command.describe : Command → String
  | .stage s => s.describe
  | .pipeline p => "PipelineCommand(stages=" ++ describeTuple (p.stages.map Stage.describe) ++ ")"

/-- The description of what a draft turned out to be. -/
def Built.describe : Built → String
  | .command c => c.describe
  | .other description => description

/-! ## Building -/

/-- The stages among some built values, up to the first that is none. -/
def Built.stages : List Built → Except ConstructError (List Stage)
  | [] => .ok []
  | .command (.stage s) :: rest => (Built.stages rest).map (s :: ·)
  | part :: _ => .error (.notAStage part.describe)

/-- A pipeline from built values. The number of stages is looked at before their kinds. -/
def Built.pipeline (parts : List Built) : Except ConstructError Built := do
  if parts.length < 2 then throw .tooFewStages
  let stages ← Built.stages parts
  let pipeline ← Pipeline.ofStages stages
  return .command (.pipeline pipeline)

mutual

/-- Build a draft from the inside out. -/
def Draft.build : Draft → Except ConstructError Built
  | .simple executable args => do
    let s ← Stage.make executable args none
    return .command (.stage s)
  | .redirected executable args redirects => do
    let s ← Stage.make executable args (some redirects)
    return .command (.stage s)
  | .pipeline stages => do
    let parts ← Draft.buildAll stages
    Built.pipeline parts
  | .nothing => return .other "None"
  | .truth value => return .other (describeBool value)
  | .number value => return .other (toString value)
  | .text value => return .other (quoted value)

/-- Build several drafts from left to right. -/
def Draft.buildAll : List Draft → Except ConstructError (List Built)
  | [] => return []
  | d :: rest => do
    let part ← Draft.build d
    let parts ← Draft.buildAll rest
    return part :: parts

end

end Conch
