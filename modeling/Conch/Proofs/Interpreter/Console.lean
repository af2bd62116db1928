-- SUMMARY: A line is run in the same way whatever was said on the console before it.
import Conch.Interpreter
import Conch.Proofs.System.Console

/-!
# The console behind a line

No move of a pipeline depends on what was said on the console, so a pipeline makes the
same moves, and with it every line comes to the same outcome and the same context. What
it writes to the console comes behind what was there.
-/

namespace Conch

open World

variable {programs : Programs} {ctx : Context} {out err : Bytes}

/-! ## Pipelines -/

/-- What a stage does with a pipe leaves the world alone. Anything else is a call. -/
theorem Member.step_behind (m : Member) (wish : Nat) (w : World) :
    m.step wish (w.behind out err) = (m.step wish w).map (answerBehind out err) := by
  cases htask : m.task with
  | ended e => simp only [step, htask, Option.map_none]
  | running job =>
    cases job with
    | done e => simp only [step, htask, answerBehind, Option.map_some]
    | ask call resume =>
      cases call with
      | read source limit =>
        cases source with
        | pipe =>
          cases hinput : m.input with
          | none => simp only [step, htask, hinput, answerBehind, Option.map_some]
          | some p => cases hread : p.read wish limit <;> simp [step, htask, hinput, hread, answerBehind]
        | _ => simp [step, htask, perform_behind, answerBehind]
      | write sink data =>
        cases sink with
        | pipe =>
          cases houtput : m.output with
          | none => simp only [step, htask, houtput, answerBehind, Option.map_some]
          | some p =>
            cases hwrite : p.write wish data with
            | none => simp [step, htask, houtput, hwrite]
            | some written =>
              obtain ⟨cause | rest, p'⟩ := written
              · simp [step, htask, houtput, hwrite, answerBehind]
              · cases rest <;> simp [step, htask, houtput, hwrite, answerBehind]
        | _ => simp [step, htask, perform_behind, answerBehind]
      | hangUp source =>
        cases source with
        | pipe => simp [step, htask, answerBehind]
        | _ => simp [step, htask, perform_behind, answerBehind]
      | _ => simp [step, htask, perform_behind, answerBehind]

namespace Network

/-- A pipeline in progress in a world on whose console something was said before. -/
def behind (net : Network) (out err : Bytes) : Network :=
  { net with world := net.world.behind out err }

variable {net : Network}

theorem start_behind (inputSize outputSize : Nat) :
    (net.behind out err).start programs ctx inputSize outputSize =
      (net.start programs ctx inputSize outputSize).map (·.behind out err) := by
  cases hstarting : net.starting with
  | none =>
    simp only [start, behind, hstarting]
    split <;> rfl
  | some job =>
    cases job with
    | ask call resume => simp [start, behind, hstarting, perform_behind, answerBehind]
    | done started =>
      cases started with
      | error failure => simp [start, behind, hstarting]
      | ok m => simp [start, behind, hstarting, join]

theorem leave_behind : (net.behind out err).leave = net.leave.map (·.behind out err) := by
  change (if _ then _ else _) = Option.map _ (if _ then _ else _)
  rw [apply_ite (Option.map _)]
  rfl

@[simp] theorem behind_members : (net.behind out err).members = net.members := rfl
@[simp] theorem behind_carriers : (net.behind out err).carriers = net.carriers := rfl
@[simp] theorem behind_hasWorker (t : PoolTask) :
    (net.behind out err).hasWorker t = net.hasWorker t := rfl

/-- Waiting looks at the stages and the pool, and these are the same. -/
theorem wait_behind : (net.behind out err).wait = net.wait.map (·.behind out err) := by
  obtain ⟨world, waiting, starting, members, carriers, workers, tasks, statuses, relaysSeen,
    aborted, leftover, fault, isOver⟩ := net
  cases aborted with
  | some a => exact leave_behind
  | none =>
  cases fault with
  | some f => exact leave_behind
  | none =>
    simp only [wait, leave_behind]
    simp only [behind, apply_ite (Option.map _), Option.map_none]
    refine congrArg _ ?_
    cases members[statuses.length]? with
    | some m => dsimp only; split <;> rfl
    | none =>
      cases carriers[relaysSeen]? with
      | some c => cases hfinished : c.finished <;> simp [hfinished]
      | none => rfl

/-- No move depends on what was said on the console before. -/
theorem step_behind (move : Move) :
    (net.behind out err).step programs ctx move =
      (net.step programs ctx move).map (·.behind out err) := by
  cases move with
  | start inputSize outputSize => exact start_behind inputSize outputSize
  | wait => exact wait_behind
  | stage i wish =>
    have hworld : (net.behind out err).world = net.world.behind out err := rfl
    simp only [step, behind_members, behind_hasWorker, hworld, Member.step_behind]
    cases net.members[i]? with
    | none => rfl
    | some m =>
      simp only [Option.bind_eq_bind, Option.bind_some, apply_ite (Option.map _), Option.map_none]
      refine congrArg _ ?_
      cases m.step wish net.world <;> rfl
  | relay i wish =>
    simp only [step, behind_members, behind_carriers, behind_hasWorker]
    cases net.carriers[i]? with
    | none => rfl
    | some c =>
    cases net.members[i]? with
    | none => rfl
    | some before =>
    cases net.members[i + 1]? with
    | none => rfl
    | some after =>
      simp only [Option.bind_eq_bind, Option.bind_some, apply_ite (Option.map _), Option.map_none]
      refine congrArg _ ?_
      cases c.step wish before.output after.input <;> rfl

@[simp] theorem round_behind : (net.behind out err).round = net.round := rfl

theorem advance_behind (fuel : Nat) (moves : List Move) (moved : Bool) :
    (net.behind out err).advance programs ctx fuel moves moved =
      (net.advance programs ctx fuel moves moved).behind out err := by
  induction fuel generalizing net moves moved with
  | zero => rfl
  | succ fuel ih =>
    cases moves with
    | nil =>
      cases moved with
      | false => rfl
      | true => exact ih ..
    | cons move rest =>
      simp only [advance, step_behind]
      cases net.step programs ctx move with
      | none => exact ih ..
      | some after => exact ih ..

end Network

theorem World.closeAll_behind (handles : List Handle) (w : World) :
    handles.foldl World.close (w.behind out err) = (handles.foldl World.close w).behind out err := by
  induction handles generalizing w with
  | nil => rfl
  | cons h rest ih => simp only [List.foldl_cons, close_behind, ih]

theorem Pipeline.run_behind (p : Pipeline) (w : World) :
    p.run programs ctx (w.behind out err) = answerBehind out err (p.run programs ctx w) := by
  have hstart : Network.ofPipeline p (w.behind out err) = (Network.ofPipeline p w).behind out err := rfl
  simp only [run, hstart, Network.round_behind, Network.advance_behind]
  -- The number of attempts is too large for the run to be looked into.
  generalize Network.advance programs ctx patience _ false _ = net
  exact congrArg (Prod.mk _) (World.closeAll_behind _ _)

/-! ## Lines -/

namespace Interpreter

theorem execute_behind (c : Command) (w : World) :
    execute programs ctx c (w.behind out err) = answerBehind out err (execute programs ctx c w) := by
  cases c with
  | stage s => exact Job.run_behind _ _ _ _
  | pipeline p => simp [execute, Pipeline.run_behind, answerBehind]

/-- A line is run in the same way whatever was said on the console before, and what it says
    comes behind that. -/
theorem runLine_behind (line : String) (w : World) :
    runLine programs ctx line (w.behind out err) = answerBehind out err (runLine programs ctx line w) := by
  unfold runLine
  cases parseTrimmed line with
  | error e => simp [answerBehind, complain, behind]
  | ok c => exact execute_behind c w

end Interpreter

end Conch
