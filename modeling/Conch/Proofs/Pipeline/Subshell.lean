-- SUMMARY: Pipelines as subshells: every stage is served in the context the pipeline began in, and the session keeps it.
import Conch.Proofs.Pipeline.Serving
import Conch.Proofs.Session.Turns

/-!
# Pipelines are subshells

Whatever its stages do and in whatever order, a pipeline leaves the context of the
session alone. `exit` as a stage only gives its code as a status, and `cd` as a
stage moves nobody: every name that is looked up for a stage, and the directory that
its process is started in, are those of the context in which the pipeline began.

So a session is moved only by lines that are a `cd` of their own.
-/

namespace Conch

open Interpreter

namespace Network

variable {programs : Programs} {ctx : Context} {p : Pipeline} {w : World} {net : Network}

/-- What a pipeline in progress does in a context. -/
structure Subshell (programs : Programs) (ctx : Context) (p : Pipeline) (w : World) (net : Network) : Prop where
  no_exit : ∀ code, net.outcome ≠ .exit code
  /-- What is asked of the world for a stage is about names in this context. -/
  requests : ∀ i move c, net.ServesStage i move → net.callOf move = some c →
    ∃ s, p.stages[i]? = some s ∧ s.Request (Entered programs ctx p w) ctx (isLastAt p i) c
  /-- A process is started in what is the directory of this context at some moment of the run. -/
  children : ∀ m, net.starting = some (.done (.ok m)) → m.role = .process →
    ∃ job owned output, m.task = .running (programJob job owned) ∧
      RunsIn programs (Entered programs ctx p w) output job
  /-- An `exit` that has ended has its code as a status. A file for input that cannot be opened, or one for
      diagnostics that takes none, may give it another. -/
  exits : ∀ (i : Nat) (m : Member) (s : Stage) (e : StageEnd), net.members[i]? = some m → p.stages[i]? = some s →
    s.executable = "exit" → m.task = .ended e → s.stdin? = none →
    s.stderr? = none ∨ Builtin.ExitsQuietly s.args → e.result = .ok (Builtin.exitCodeOf s.args)

theorem Reachable.subshell (h : Reachable programs ctx p w net) : net.Subshell programs ctx p w where
  no_exit code hexit := by
    unfold outcome at hexit
    split at hexit
    · cases hexit
    · cases hexit
    · cases hexit
  requests i move c hserves hcall := h.request hserves hcall
  children m hstarting hrole := by
    obtain ⟨s, held, -, -, htracked⟩ := h.serving.starting _ hstarting
    cases (Job.tracked_done _).1 htracked with
    | builtin hb hrole' htask =>
      rw [hrole] at hrole'
      cases hrole'
    | absent status hnot howned => cases hrole
    | process hnot hrole' htask howned hspawned =>
      obtain ⟨output, hruns, -⟩ := hspawned.runs
      exact ⟨_, _, output, htask, hruns⟩
  exits i m s e hm hs hname htask hstdin htold := by
    have hrole : m.role = .builtin := h.serving.roles i m hm s hs (by rw [hname]; decide)
    obtain ⟨s', held, hs', htracked⟩ := h.serving.members i m hm hrole
    rw [hs] at hs'
    cases hs'
    rw [htask] at htracked
    exact ((Job.tracked_done e).1 htracked).exit hname hstdin htold

end Network

/-! ## Sessions -/

namespace Interpreter

variable {programs : Programs} {ctx after : Context} {w w' : World} {outcome : Outcome} {line : String}

/-- The operand of a line that is a `cd` and no pipeline. -/
def cdTarget? (line : String) : Option String :=
  match parseTrimmed line with
  | .ok (.stage s) =>
    if s.executable = "cd" then
      match s.args with
      | [] => some "~"
      | [target] => some target
      | _ => none
    else none
  | _ => none

/-- The context after moves to what some operands of `cd` mean, one after the other. -/
def moveAll (ctx : Context) (targets : List String) : Context :=
  targets.foldl (fun ctx target => ctx.moveTo (Builtin.destination ctx target)) ctx

theorem moveAll_home (ctx : Context) (targets : List String) : (moveAll ctx targets).home = ctx.home := by
  induction targets generalizing ctx with
  | nil => rfl
  | cons target rest ih => exact ih _

theorem moveAll_searchPath (ctx : Context) (targets : List String) :
    (moveAll ctx targets).searchPath = ctx.searchPath := by
  induction targets generalizing ctx with
  | nil => rfl
  | cons target rest ih => exact ih _

/-- A line leaves the session where it is, or moves it to where its `cd` leads. -/
theorem RunsLine.context (h : RunsLine programs ctx w line outcome after w') :
    after = ctx ∨ ∃ target, cdTarget? line = some target ∧ after = ctx.moveTo (Builtin.destination ctx target) := by
  cases h with
  | unreadable hline => exact .inl rfl
  | command hline hruns =>
    refine hruns.context.imp id ?_
    rintro ⟨s, rfl, hmoved⟩
    obtain ⟨target, hargs, hafter⟩ := hmoved.context
    refine ⟨target, ?_, hafter⟩
    rcases hargs with ⟨hnone, rfl⟩ | hone
    · simp [cdTarget?, hline, hmoved.executable, hnone]
    · simp [cdTarget?, hline, hmoved.executable, hone]

/-- Whatever lines a session takes, its context is moved by some of those that are a `cd` of their own. -/
theorem InTurn.context {lines : List String} (h : InTurn (RunsLine programs) ctx w lines after w') :
    ∃ targets, targets.Sublist (lines.filterMap cdTarget?) ∧ after = moveAll ctx targets := by
  induction h with
  | nil ctx w => exact ⟨[], List.Sublist.refl _, rfl⟩
  | @cons ctx middle after w w₁ w' line rest outcome hfirst hrest ih =>
    obtain ⟨targets, hsublist, rfl⟩ := ih
    rcases hfirst.context with rfl | ⟨target, htarget, rfl⟩
    · refine ⟨targets, ?_, rfl⟩
      rw [List.filterMap_cons]
      split
      · exact hsublist
      · exact hsublist.cons _
    · refine ⟨target :: targets, ?_, rfl⟩
      rw [List.filterMap_cons, htarget]
      exact hsublist.cons_cons target

/-- A pipeline is a subshell: it leaves the context alone and asks for no end of the session, all its stages are
    served in the context in which it began, and a session is only moved by lines that are a `cd` on their own. -/
theorem pipeline_is_subshell :
    (∀ (programs : Programs) (ctx : Context) (p : Pipeline) (w : World),
      (∀ outcome after w', Executes programs ctx w (.pipeline p) outcome after w' →
        after.directory = ctx.directory ∧ after.home = ctx.home ∧ after.searchPath = ctx.searchPath ∧
        ∀ code, outcome ≠ .exit code) ∧
      ∀ net : Network, net.Reachable programs ctx p w → net.Subshell programs ctx p w) ∧
    ∀ (programs : Programs) (ctx after : Context) (lines : List String) (w w' : World),
      InTurn (RunsLine programs) ctx w lines after w' →
        (∃ targets, targets.Sublist (lines.filterMap cdTarget?) ∧ after = moveAll ctx targets) ∧
        after.home = ctx.home ∧ after.searchPath = ctx.searchPath := by
  refine ⟨fun programs ctx p w => ⟨?_, fun net hnet => hnet.subshell⟩, ?_⟩
  · intro outcome after w' hruns
    cases hruns with
    | pipeline hnet => exact ⟨rfl, rfl, rfl, hnet.subshell.no_exit⟩
  · intro programs ctx after lines w w' hturns
    obtain ⟨targets, hsublist, rfl⟩ := hturns.context
    exact ⟨⟨targets, hsublist, rfl⟩, moveAll_home ctx targets, moveAll_searchPath ctx targets⟩

/-- `cd a | exit 3` -/
def movingPipeline : Pipeline :=
  ⟨[⟨"cd", ["a"], none, by decide⟩, ⟨"exit", ["3"], none, by decide⟩], by decide, by decide⟩

/-- The pipeline comes to the status 3, and a session that takes it as a line stays where it is. -/
theorem pipeline_is_subshell_of_cd_and_exit :
    (∃ net : Network, net.Reachable (fun _ => none) rootContext movingPipeline nestedWorld ∧ net.isOver = true ∧
      net.outcome = .status 3 ∧ net.Subshell (fun _ => none) rootContext movingPipeline nestedWorld) ∧
    ∀ after w', InTurn (RunsLine fun _ => none) rootContext nestedWorld ["cd a | exit 3"] after w' →
      after = rootContext := by
  constructor
  · have hrun : ((Network.ofPipeline movingPipeline nestedWorld).follow (fun _ => none) rootContext
        (List.replicate 4 (.start 1 1) ++ [.stage 1 1, .stage 0 1, .stage 0 1, .relay 0 1] ++
          List.replicate 4 .wait)).any (fun net => net.isOver && net.outcome = .status 3) = true := by
      decide +kernel
    obtain ⟨net, hnet, hfacts⟩ := (Option.any_eq_true _ _).1 hrun
    rw [Bool.and_eq_true, decide_eq_true_eq] at hfacts
    have hreachable := Network.Reachable.ofPipeline.follow hnet
    exact ⟨net, hreachable, hfacts.1, hfacts.2, (pipeline_is_subshell.1 _ _ _ _).2 net hreachable⟩
  · intro after w' hturns
    obtain ⟨⟨targets, hsublist, rfl⟩, -⟩ := pipeline_is_subshell.2 _ _ _ _ _ _ hturns
    have hnone : ["cd a | exit 3"].filterMap cdTarget? = [] := by decide +kernel
    rw [hnone, List.sublist_nil] at hsublist
    rw [hsublist]
    rfl

end Interpreter

end Conch
