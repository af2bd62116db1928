-- SUMMARY: A command as a tree of lines, for the reader of a debugging run.
import Conch.Command.Draft

/-!
# Command trees

A stage is one line: what it runs, the kind of stage, and in square brackets its
arguments and files. A pipeline is a line that counts its stages, and below it
one indented line for each.
-/

namespace Conch

/-- What a stage's redirections add to its line. -/
def Redirects.details (r : Redirects) : List String :=
  let stdin := r.stdin.toList.map fun file => s!"stdin={file}"
  let mode := if r.append then "append" else "truncate"
  let stdout := r.stdout.toList.map fun file => s!"stdout={file} ({mode})"
  let stderr := r.stderr.toList.map fun file => s!"stderr={file}"
  stdin ++ stdout ++ stderr

/-- What stands in square brackets on a stage's line. -/
def Stage.details (s : Stage) : List String :=
  let args := if s.args.isEmpty then [] else ["args=" ++ quotedList s.args]
  args ++ (s.redirects.map Redirects.details).getD []

/-- The line of a stage. -/
def Stage.summary (s : Stage) : String :=
  let base := s!"{s.executable} ({s.kindName})"
  if s.details.isEmpty then base
  else base ++ " [" ++ " | ".intercalate s.details ++ "]"

/-- The lines of a command's tree. -/
def Command.treeLines : Command → List String
  | .stage s => [s.summary]
  | .pipeline p =>
    s!"pipeline ({p.stages.length} stages)" :: p.stages.map fun s => "  " ++ s.summary

/-- A command as a tree of lines, without a line end behind the last. -/
def Command.tree (c : Command) : String :=
  "\n".intercalate c.treeLines

end Conch
