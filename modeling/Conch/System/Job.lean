-- SUMMARY: Jobs, the trees of calls that commands and programs make, and running them.
import Conch.System.World

/-!
# Jobs

A job is an interaction tree: it is done with a result, or it makes a call and
goes on according to the reply. A job says nothing about when its calls are
served. `run` serves them one after the other; a pipeline serves those of several
jobs in turn.
-/

namespace Conch

/-- A computation that makes calls on the world. -/
inductive Job (α : Type) where
  | done (result : α)
  | ask (call : Call) (resume : call.Reply → Job α)

namespace Job

/-- Go on with another job after this one. -/
def bind {α β : Type} : Job α → (α → Job β) → Job β
  | done a, f => f a
  | ask call resume, f => ask call fun reply => (resume reply).bind f

instance : Monad Job where
  pure := done
  bind := bind

/-- Run a job from start to end in a world. -/
def run {α : Type} : Job α → World → α × World
  | done a, w => (a, w)
  | ask call resume, w =>
    let (reply, w) := w.perform call
    (resume reply).run w

/-- The job of a single call. -/
def call (c : Call) : Job c.Reply := ask c done

/-! ## Laws -/

theorem bind_assoc {α β γ : Type} (j : Job α) (f : α → Job β) (g : β → Job γ) :
    (j.bind f).bind g = j.bind fun a => (f a).bind g := by
  induction j with
  | done a => rfl
  | ask call resume ih => simp [bind, ih]

theorem bind_done {α : Type} (j : Job α) : j.bind done = j := by
  induction j with
  | done a => rfl
  | ask call resume ih => simp [bind, ih]

instance : LawfulMonad Job := LawfulMonad.mk' Job
  (fun j => bind_done j)
  (fun _ _ => rfl)
  bind_assoc

@[simp] theorem run_pure {α : Type} (a : α) (w : World) : (pure a : Job α).run w = (a, w) := rfl

@[simp] theorem run_bind {α β : Type} (j : Job α) (f : α → Job β) (w : World) :
    (j >>= f).run w = (f (j.run w).1).run (j.run w).2 := by
  show (j.bind f).run w = _
  induction j generalizing w with
  | done a => rfl
  | ask call resume ih => simp [bind, run, ih]

end Job

end Conch
