-- SUMMARY: Weakest preconditions of jobs and of what stages do, for every way in which the world may reply.
import Conch.Launch

/-!
# Weakest preconditions

`Job.wp` says what holds when a job is done, whatever the world replies to its
calls. `StageM.wp` says the same of what a stage does with its streams. The rules
below follow the structure of a job, so that a statement about it is reduced to
statements about its parts. They are used for facts that do not depend on the
world, such as how the streams of a process are chosen.
-/

namespace Conch

variable {α β : Type}

/-! ## Jobs -/

namespace Job

/-- What has to be shown so that `Q` holds of the result of a job under all replies. -/
def wp : Job α → (α → Prop) → Prop
  | done a, Q => Q a
  | ask _ resume, Q => ∀ reply, (resume reply).wp Q

@[simp] theorem wp_done (a : α) (Q : α → Prop) : (done a).wp Q ↔ Q a := Iff.rfl

@[simp] theorem wp_ask (c : Call) (resume : c.Reply → Job α) (Q : α → Prop) :
    (ask c resume).wp Q ↔ ∀ reply, (resume reply).wp Q := Iff.rfl

@[simp] theorem wp_pure (a : α) (Q : α → Prop) : (pure a : Job α).wp Q ↔ Q a := Iff.rfl

@[simp] theorem wp_call (c : Call) (Q : c.Reply → Prop) : (call c).wp Q ↔ ∀ reply, Q reply := Iff.rfl

@[simp] theorem wp_bind (j : Job α) (f : α → Job β) (Q : β → Prop) :
    (j >>= f).wp Q ↔ j.wp fun a => (f a).wp Q := by
  show (j.bind f).wp Q ↔ _
  induction j with
  | done a => exact Iff.rfl
  | ask call resume ih => exact forall_congr' ih

theorem wp_mono {j : Job α} {P Q : α → Prop} (h : ∀ a, P a → Q a) (hj : j.wp P) : j.wp Q := by
  induction j with
  | done a => exact h a hj
  | ask call resume ih => exact fun reply => ih reply (hj reply)

theorem wp_of_forall {Q : α → Prop} (h : ∀ a, Q a) (j : Job α) : j.wp Q := by
  induction j with
  | done a => exact h a
  | ask call resume ih => exact fun reply => ih reply

end Job

/-! ## Stages -/

namespace StageM

/-- What has to hold of the streams so that `Q` holds of the result and the streams afterwards. -/
def wp (x : StageM α) (Q : Except Fault α → Streams → Prop) (streams : Streams) : Prop :=
  Job.wp (x streams) fun r => Q r.1 r.2

variable {Q : Except Fault α → Streams → Prop} {streams : Streams}

@[simp] theorem wp_pure (a : α) : wp (pure a) Q streams ↔ Q (.ok a) streams := Iff.rfl

@[simp] theorem wp_throw (fault : Fault) : wp (throw fault : StageM α) Q streams ↔ Q (.error fault) streams :=
  Iff.rfl

@[simp] theorem wp_bind (x : StageM β) (f : β → StageM α) :
    wp (x >>= f) Q streams ↔
      wp x (fun result streams => match result with
        | .ok a => wp (f a) Q streams
        | .error fault => Q (.error fault) streams) streams := by
  refine (Job.wp_bind (x streams) _ _).trans ?_
  unfold wp
  have hcont : ∀ r : Except Fault β × Streams,
      (Job.wp (ExceptT.bindCont f r.1 r.2) fun r => Q r.1 r.2) ↔
        match r.1 with
        | .ok a => wp (f a) Q r.2
        | .error fault => Q (.error fault) r.2 := by
    rintro ⟨result, streams⟩
    cases result with
    | ok a => exact Iff.rfl
    | error fault => exact Iff.rfl
  exact ⟨Job.wp_mono fun r => (hcont r).1, Job.wp_mono fun r => (hcont r).2⟩

@[simp] theorem wp_get {Q : Except Fault Streams → Streams → Prop} :
    wp get Q streams ↔ Q (.ok streams) streams := Iff.rfl

@[simp] theorem wp_set {Q : Except Fault PUnit → Streams → Prop} (new : Streams) :
    wp (set new) Q streams ↔ Q (.ok ⟨⟩) new := Iff.rfl

@[simp] theorem wp_modify {Q : Except Fault PUnit → Streams → Prop} (f : Streams → Streams) :
    wp (modify f) Q streams ↔ Q (.ok ⟨⟩) (f streams) := Iff.rfl

@[simp] theorem wp_liftM (j : Job α) : wp (liftM j) Q streams ↔ j.wp fun a => Q (.ok a) streams := by
  show Job.wp ((j >>= fun a => pure (a, streams)) >>= fun p => pure (Except.ok p.1, p.2)) _ ↔ _
  rw [Job.wp_bind, Job.wp_bind]
  exact Iff.rfl

@[simp] theorem wp_call (c : Call) {Q : Except Fault c.Reply → Streams → Prop} :
    wp (call c) Q streams ↔ ∀ reply, Q (.ok reply) streams := Iff.rfl

@[simp] theorem wp_attempt {Q : Except Fault (Except Fault α) → Streams → Prop} (x : StageM α) :
    wp (attempt x) Q streams ↔ wp x (fun result streams => Q (.ok result) streams) streams :=
  Job.wp_bind (x streams) _ _

theorem wp_mono {x : StageM α} {P : Except Fault α → Streams → Prop}
    (h : ∀ result streams, P result streams → Q result streams) (hx : wp x P streams) : wp x Q streams :=
  Job.wp_mono (fun r => h r.1 r.2) hx

/-- A condition on the streams that survives what a stage does, also if a fault ends it. -/
def Maintains (I : Streams → Prop) (x : StageM α) : Prop :=
  ∀ streams, I streams → wp x (fun _ after => I after) streams

section Maintains

variable {I : Streams → Prop}

theorem maintains_pure (a : α) : Maintains I (pure a) := fun _ h => h

theorem maintains_throw (fault : Fault) : Maintains I (throw fault : StageM α) := fun _ h => h

theorem maintains_call (c : Call) : Maintains I (call c) := fun _ h _ => h

theorem maintains_set {new : Streams} (h : I new) : Maintains I (set new) := fun _ _ => h

theorem maintains_modify {f : Streams → Streams} (h : ∀ streams, I streams → I (f streams)) :
    Maintains I (modify f) := fun streams hstreams => h streams hstreams

theorem maintains_bind {x : StageM β} {f : β → StageM α} (hx : Maintains I x)
    (hf : ∀ a, Maintains I (f a)) : Maintains I (x >>= f) := by
  intro streams h
  rw [wp_bind]
  refine wp_mono ?_ (hx streams h)
  intro result after hafter
  cases result with
  | ok a => exact hf a after hafter
  | error fault => exact hafter

/-- What follows a fault does not matter. -/
theorem maintains_throw_bind (fault : Fault) (f : β → StageM α) :
    Maintains I ((throw fault : StageM β) >>= f) := fun _ h => h

/-- The streams that are looked at meet the condition too. -/
theorem maintains_get_bind {f : Streams → StageM α}
    (hf : ∀ streams, I streams → Maintains I (f streams)) : Maintains I (get >>= f) :=
  fun streams h => hf streams h streams h

theorem maintains_attempt {x : StageM α} (hx : Maintains I x) : Maintains I (attempt x) := by
  intro streams h
  rw [wp_attempt]
  exact hx streams h

end Maintains

end StageM

-- From here on the rules are used, so that no job is run to see what a statement about it comes to.
attribute [irreducible] Job.wp

end Conch
