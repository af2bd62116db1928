-- SUMMARY: Weakest preconditions of jobs in the company of others, who may change the world between two calls.
import Conch.Proofs.Pipeline.Pipes
import Conch.Proofs.System.Later

/-!
# Jobs in company

`Job.amid` says what holds when a job is done and of the world at that moment. The
job does not have the world to itself: before each of its calls the world may be
a later one, and a call on a pipe is answered by the other side of the pipe. The
rules follow the structure of a job, as those of `Job.wp` do, and `StageM.Careful`
is the judgement for what a stage does with its streams.
-/

namespace Conch

variable {α β : Type} {shared : Prop}

/-! ## Jobs -/

/-- What a call can be answered with, and the world after it. -/
def World.Answers (shared : Prop) (w : World) (c : Call) (reply : c.Reply) (after : World) : Prop :=
  (reply, after) = w.perform c ∨ c.OnPipe ∧ w.Later shared after

theorem World.Answers.later {w w' : World} {c : Call} {reply : c.Reply} (h : w.Answers shared c reply w')
    (hclose : ∀ handle, c = .close handle → shared) : w.Later shared w' := by
  rcases h with hperform | ⟨-, hlater⟩
  · have hw : w' = (w.perform c).2 := congrArg Prod.snd hperform
    rw [hw]
    exact World.perform_later c hclose
  · exact hlater

theorem World.Answers.performed {w w' : World} {c : Call} {reply : c.Reply} (h : w.Answers shared c reply w')
    (hc : ¬ c.OnPipe) : (reply, w') = w.perform c :=
  h.resolve_right fun hpipe => hc hpipe.1

namespace Job

/-- What has to be shown of a world so that `Q` holds of the result of a job and of the world at its
    end, whatever others do in between. -/
def amid (shared : Prop) : Job α → (α → World → Prop) → World → Prop
  | done a, Q, w => Q a w
  | ask c resume, Q, w =>
    ∀ now, w.Later shared now → ∀ reply after, now.Answers shared c reply after →
      (resume reply).amid shared Q after

variable {Q : α → World → Prop} {w w' : World}

@[simp] theorem amid_done (a : α) : (done a).amid shared Q w ↔ Q a w := Iff.rfl

@[simp] theorem amid_ask (c : Call) (resume : c.Reply → Job α) :
    (ask c resume).amid shared Q w ↔
      ∀ now, w.Later shared now → ∀ reply after, now.Answers shared c reply after →
        (resume reply).amid shared Q after := Iff.rfl

@[simp] theorem amid_pure (a : α) : (pure a : Job α).amid shared Q w ↔ Q a w := Iff.rfl

@[simp] theorem amid_call (c : Call) {Q : c.Reply → World → Prop} :
    (call c).amid shared Q w ↔
      ∀ now, w.Later shared now → ∀ reply after, now.Answers shared c reply after → Q reply after := Iff.rfl

@[simp] theorem amid_bind (j : Job β) (f : β → Job α) :
    (j >>= f).amid shared Q w ↔ j.amid shared (fun b => (f b).amid shared Q) w := by
  show (j.bind f).amid shared Q w ↔ _
  induction j generalizing w with
  | done b => exact Iff.rfl
  | ask c resume ih =>
    exact forall_congr' fun now => forall_congr' fun _ => forall_congr' fun reply =>
      forall_congr' fun after => forall_congr' fun _ => ih reply

theorem amid_mono {P : α → World → Prop} {j : Job α} (h : ∀ a w, P a w → Q a w)
    (hj : j.amid shared P w) : j.amid shared Q w := by
  induction j generalizing w with
  | done a => exact h a w hj
  | ask c resume ih => exact fun now hnow reply after hreply => ih reply (hj now hnow reply after hreply)

theorem amid_of_forall (h : ∀ a w, Q a w) (j : Job α) (w : World) : j.amid shared Q w := by
  induction j generalizing w with
  | done a => exact h a w
  | ask c resume ih => exact fun _ _ reply after _ => ih reply after

/-- What may happen between two calls may also happen before the first. -/
theorem amid_later {j : Job α} (hQ : ∀ a w w', w.Later shared w' → Q a w → Q a w') (hlater : w.Later shared w')
    (hj : j.amid shared Q w) : j.amid shared Q w' := by
  cases j with
  | done a => exact hQ a w w' hlater hj
  | ask c resume => exact fun now hnow => hj now (hlater.trans hnow)

/-- A job that leaves every world a later one. -/
def Quiet (shared : Prop) (j : Job α) : Prop :=
  ∀ w, j.amid shared (fun _ after => w.Later shared after) w

theorem quiet_pure (a : α) : (pure a : Job α).Quiet shared := fun w => .refl w

theorem quiet_call (c : Call) (hclose : ∀ handle, c ≠ .close handle) : (call c).Quiet shared :=
  fun _ _ hnow _ _ hanswers => hnow.trans (hanswers.later fun handle hc => absurd hc (hclose handle))

theorem quiet_bind {j : Job β} {f : β → Job α} (hj : j.Quiet shared) (hf : ∀ b, (f b).Quiet shared) :
    (j >>= f).Quiet shared := by
  intro w
  rw [amid_bind]
  refine amid_mono (fun b w' hw' => ?_) (hj w)
  exact amid_mono (fun a w'' hw'' => hw'.trans hw'') (hf b w')

end Job

/-! ## Stages -/

namespace StageM

/-- What has to hold of the streams and the world so that `Q` holds of the result, and of the streams
    and the world afterwards. -/
def amid (shared : Prop) (x : StageM α) (Q : Except Fault α → Streams → World → Prop) (streams : Streams)
    (w : World) : Prop :=
  Job.amid shared (x streams) (fun r => Q r.1 r.2) w

section Rules

variable {Q : Except Fault α → Streams → World → Prop} {streams : Streams} {w : World}

@[simp] theorem amid_pure (a : α) : amid shared (pure a) Q streams w ↔ Q (.ok a) streams w := Iff.rfl

@[simp] theorem amid_throw (fault : Fault) :
    amid shared (throw fault : StageM α) Q streams w ↔ Q (.error fault) streams w := Iff.rfl

@[simp] theorem amid_get {Q : Except Fault Streams → Streams → World → Prop} :
    amid shared get Q streams w ↔ Q (.ok streams) streams w := Iff.rfl

@[simp] theorem amid_set {Q : Except Fault PUnit → Streams → World → Prop} (new : Streams) :
    amid shared (set new) Q streams w ↔ Q (.ok ⟨⟩) new w := Iff.rfl

@[simp] theorem amid_modify {Q : Except Fault PUnit → Streams → World → Prop} (f : Streams → Streams) :
    amid shared (modify f) Q streams w ↔ Q (.ok ⟨⟩) (f streams) w := Iff.rfl

theorem amid_bind {x : StageM β} {f : β → StageM α} {R : Except Fault β → Streams → World → Prop}
    (hx : amid shared x R streams w) (hok : ∀ b after w', R (.ok b) after w' → amid shared (f b) Q after w')
    (herror : ∀ fault after w', R (.error fault) after w' → Q (.error fault) after w') :
    amid shared (x >>= f) Q streams w := by
  refine (Job.amid_bind (x streams) _).2 (Job.amid_mono ?_ hx)
  rintro ⟨result, after⟩ w' hR
  cases result with
  | ok b => exact hok b after w' hR
  | error fault => exact herror fault after w' hR

@[simp] theorem amid_liftM (j : Job α) :
    amid shared (liftM j) Q streams w ↔ j.amid shared (fun a => Q (.ok a) streams) w := by
  show Job.amid shared ((j >>= fun a => pure (a, streams)) >>= fun p => pure (Except.ok p.1, p.2)) _ w ↔ _
  rw [Job.amid_bind, Job.amid_bind]
  exact Iff.rfl

@[simp] theorem amid_call (c : Call) {Q : Except Fault c.Reply → Streams → World → Prop} :
    amid shared (call c) Q streams w ↔
      ∀ now, w.Later shared now → ∀ reply after, now.Answers shared c reply after →
        Q (.ok reply) streams after := Iff.rfl

@[simp] theorem amid_attempt {Q : Except Fault (Except Fault α) → Streams → World → Prop} (x : StageM α) :
    amid shared (attempt x) Q streams w ↔ amid shared x (fun result => Q (.ok result)) streams w :=
  Job.amid_bind (x streams) _

theorem amid_mono {P : Except Fault α → Streams → World → Prop} {x : StageM α}
    (h : ∀ result after w', P result after w' → Q result after w') (hx : amid shared x P streams w) :
    amid shared x Q streams w :=
  Job.amid_mono (fun r => h r.1 r.2) hx

@[simp] theorem amid_get_bind {f : Streams → StageM α} :
    amid shared (get >>= f) Q streams w ↔ amid shared (f streams) Q streams w := Iff.rfl

@[simp] theorem amid_set_bind {new : Streams} {f : PUnit → StageM α} :
    amid shared (set new >>= f) Q streams w ↔ amid shared (f ⟨⟩) Q new w := Iff.rfl

@[simp] theorem amid_modify_bind {g : Streams → Streams} {f : PUnit → StageM α} :
    amid shared (modify g >>= f) Q streams w ↔ amid shared (f ⟨⟩) Q (g streams) w := Iff.rfl

@[simp] theorem amid_throw_bind {fault : Fault} {f : β → StageM α} :
    amid shared ((throw fault : StageM β) >>= f) Q streams w ↔ Q (.error fault) streams w := Iff.rfl

theorem amid_call_bind {c : Call} {f : c.Reply → StageM α}
    (h : ∀ now, w.Later shared now → ∀ reply after, now.Answers shared c reply after →
      amid shared (f reply) Q streams after) : amid shared (call c >>= f) Q streams w := h

theorem amid_attempt_bind {x : StageM β} {f : Except Fault β → StageM α}
    {P : Except Fault β → Streams → World → Prop} (hx : amid shared x P streams w)
    (hf : ∀ result after w', P result after w' → amid shared (f result) Q after w') :
    amid shared (attempt x >>= f) Q streams w := by
  refine amid_bind ((amid_attempt x).2 (amid_mono ?_ hx) : amid shared (attempt x)
    (fun result after w' => ∃ r, result = .ok r ∧ P r after w') streams w) ?_ ?_
  · exact fun result after w' hP => ⟨result, rfl, hP⟩
  · rintro result after w' ⟨r, ⟨⟩, hP⟩
    exact hf result after w' hP
  · rintro fault after w' ⟨r, ⟨⟩, -⟩

end Rules

/-- What a stage does keeps a condition on the streams and the world, and if a fault ends it then only
    one of a certain kind. -/
def Careful (shared : Prop) (I : Streams → World → Prop) (E : Fault → World → Prop) (x : StageM α) : Prop :=
  ∀ streams w, I streams w →
    amid shared x (fun result after w' => I after w' ∧ ∀ fault, result = .error fault → E fault w') streams w

/-- A condition that time does not touch. -/
def Lasting (shared : Prop) (I : Streams → World → Prop) : Prop :=
  ∀ streams w w', w.Later shared w' → I streams w → I streams w'

section Careful

variable {I : Streams → World → Prop} {E E' : Fault → World → Prop}

theorem careful_pure (a : α) : Careful shared I E (pure a) :=
  fun _ _ h => ⟨h, fun _ hfault => by cases hfault⟩

theorem careful_throw {fault : Fault} (hE : ∀ w, E fault w) : Careful shared I E (throw fault : StageM α) :=
  fun _ w h => ⟨h, fun _ hfault => by cases hfault; exact hE w⟩

theorem careful_modify {f : Streams → Streams} (hf : ∀ streams w, I streams w → I (f streams) w) :
    Careful shared I E (modify f) :=
  fun streams w h => ⟨hf streams w h, fun _ hfault => by cases hfault⟩

theorem careful_call (hI : Lasting shared I) (c : Call)
    (hclose : ∀ handle, c ≠ .close handle) : Careful shared I E (call c) := by
  intro streams w h
  rw [amid_call]
  intro now hnow reply after hanswers
  have hlater := hanswers.later fun handle hc => absurd hc (hclose handle)
  exact ⟨hI streams w after (hnow.trans hlater) h, fun _ hfault => by cases hfault⟩

theorem careful_liftM (hI : Lasting shared I) {j : Job α} (hj : j.Quiet shared) :
    Careful shared I E (liftM j) := by
  intro streams w h
  rw [amid_liftM]
  refine Job.amid_mono ?_ (hj w)
  intro a w' hlater
  exact ⟨hI streams w w' hlater h, fun _ hfault => by cases hfault⟩

theorem careful_bind {x : StageM β} {f : β → StageM α} (hx : Careful shared I E x)
    (hf : ∀ b, Careful shared I E (f b)) : Careful shared I E (x >>= f) := by
  intro streams w h
  refine amid_bind (hx streams w h) ?_ ?_
  · intro b after w' hafter
    exact hf b after w' hafter.1
  · intro fault after w' hafter
    refine ⟨hafter.1, fun fault' hfault => ?_⟩
    cases hfault
    exact hafter.2 fault rfl

/-- The streams that are looked at meet the condition too. -/
theorem careful_get_bind {f : Streams → StageM α}
    (hf : ∀ streams w, I streams w → Careful shared I E (f streams)) : Careful shared I E (get >>= f) :=
  fun streams w h => hf streams w h streams w h

/-- What is tried may come to any fault. -/
theorem careful_attempt {x : StageM α} (hx : Careful shared I E' x) : Careful shared I E (attempt x) := by
  intro streams w h
  refine (amid_attempt x).2 (amid_mono ?_ (hx streams w h))
  intro result after w' hafter
  exact ⟨hafter.1, fun _ hfault => by cases hfault⟩

theorem careful_mono {x : StageM α} (hE : ∀ fault w, E fault w → E' fault w) (hx : Careful shared I E x) :
    Careful shared I E' x := by
  intro streams w h
  refine amid_mono ?_ (hx streams w h)
  intro result after w' hafter
  exact ⟨hafter.1, fun fault hfault => hE fault w' (hafter.2 fault hfault)⟩

end Careful

end StageM

/-! ## Members -/

/-- One move of a stage: it ends, it gets an answer to its call, or it has written a part of what it
    writes to a pipe. -/
inductive Member.Proceeded (shared : Prop) (m : Member) (w : World) (m' : Member) (w' : World) : Prop
  | ended {e : StageEnd} (htask : m.task = .running (.done e)) (htask' : m'.task = .ended e) (hw : w' = w)
  | answered {c : Call} {resume : c.Reply → Job StageEnd} {reply : c.Reply}
      (htask : m.task = .running (.ask c resume)) (htask' : m'.task = .running (resume reply))
      (hanswers : w.Answers shared c reply w')
  | writing {data rest : Bytes} {resume : Except Errno Unit → Job StageEnd}
      (htask : m.task = .running (.ask (.write .pipe data) resume))
      (htask' : m'.task = .running (.ask (.write .pipe rest) resume)) (hw : w' = w)

theorem Member.proceeded_of_step {m m' : Member} {w w' : World} {wish : Nat}
    (h : m.step wish w = some (m', w')) : m.Proceeded shared w m' w' := by
  unfold step at h
  split at h
  · cases h
  · rename_i e htask
    cases h
    exact .ended htask rfl rfl
  · rename_i limit resume htask
    split at h
    · cases h
      exact .answered htask rfl (.inr ⟨trivial, .refl w⟩)
    · split at h
      · cases h
      · cases h
        exact .answered htask rfl (.inr ⟨trivial, .refl w⟩)
  · rename_i data resume htask
    split at h
    · cases h
      exact .answered htask rfl (.inr ⟨trivial, .refl w⟩)
    · split at h
      · cases h
      · cases h
        exact .answered htask rfl (.inr ⟨trivial, .refl w⟩)
      · cases h
        exact .answered htask rfl (.inr ⟨trivial, .refl w⟩)
      · cases h
        exact .writing htask rfl rfl
  · rename_i resume htask
    cases h
    exact .answered htask rfl (.inr ⟨trivial, .refl w⟩)
  · rename_i call resume _ _ _ htask
    cases h
    exact .answered htask rfl (.inl rfl)

-- As with `Job.wp`, from here on the rules are used.
attribute [irreducible] Job.amid

end Conch
