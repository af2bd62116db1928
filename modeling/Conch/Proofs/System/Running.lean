-- SUMMARY: What a stage comes to when its calls are served by a world one after the other, by one rule for each construct.
import Conch.Proofs.System.Exchanges

/-!
# Running in a world

`StageM.runs` says what holds once a stage has run from given streams and a given world:
of its result, its streams and the world. As with `wp` the rules follow the structure of
what is done. Nothing else happens in the world meanwhile.

A trace that a world serves tells a run of the same.
-/

namespace Conch

variable {α β : Type}

/-! ## Traces that are served -/

/-- A world replies as in a trace, and is another world after it. -/
def World.Serves : World → List Exchange → World → Prop
  | w, [], after => after = w
  | w, e :: rest, after => e.reply = (w.perform e.call).1 ∧ (w.perform e.call).2.Serves rest after

theorem World.serves_append {w after : World} {first rest : List Exchange} :
    w.Serves (first ++ rest) after ↔ ∃ middle, w.Serves first middle ∧ middle.Serves rest after := by
  induction first generalizing w with
  | nil => simp [Serves]
  | cons e first ih =>
    simp only [List.cons_append, Serves, ih]
    constructor
    · rintro ⟨hreply, middle, hfirst, hrest⟩
      exact ⟨middle, ⟨hreply, hfirst⟩, hrest⟩
    · rintro ⟨middle, ⟨hreply, hfirst⟩, hrest⟩
      exact ⟨hreply, middle, hfirst, hrest⟩

/-- A world opens each file under a number of its own. -/
theorem World.Serves.fresh {w after : World} {trace : List Exchange} {held : List Opening} (h : w.Serves trace after)
    (hheld : ∀ o ∈ held, o.handle < w.opened.size) : Fresh held trace := by
  induction trace generalizing w held with
  | nil => trivial
  | cons e trace ih =>
    obtain ⟨c, reply⟩ := e
    obtain ⟨hreply, hrest⟩ := h
    have hreply : reply = (w.perform c).1 := hreply
    have hlater : w.Later True (w.perform c).2 := w.perform_later c fun _ _ => trivial
    have hkept : ∀ o ∈ held, o.handle < (w.perform c).2.opened.size := fun o ho => hlater.lt_size (hheld o ho)
    refine ⟨fun o ho o' ho' => ?_, ih hrest fun o ho => ?_⟩
    · unfold Exchange.opening? at ho
      split at ho
      · cases ho
        rename_i hsame
        cases hsame
        rw [size_of_openPath hreply.symm]
        exact Nat.ne_of_lt (hheld o' ho')
      · cases ho
    · simp only [Exchange.holds] at ho
      unfold Call.holds at ho
      split at ho
      · rcases List.mem_cons.1 ho with rfl | ho
        · exact lt_size_of_openPath hreply.symm
        · exact hkept o ho
      · exact hkept o (List.mem_of_mem_eraseP ho)
      · exact hkept o ho

/-- Running a job is served by the world it is run in. -/
theorem Job.serves_traceIn (j : Job α) (w : World) : w.Serves (j.traceIn w) (j.run w).2 := by
  induction j generalizing w with
  | done a => rfl
  | ask c resume ih => exact ⟨rfl, ih _ _⟩

/-- A trace that is served tells what comes of the job that makes it. -/
theorem Job.run_of_makes {j : Job α} {a : α} {w after : World} {trace : List Exchange} (h : j.makes trace a)
    (hserves : w.Serves trace after) : j.run w = (a, after) := by
  induction j generalizing w trace with
  | done b =>
    obtain ⟨rfl, rfl⟩ := makes_done.1 h
    exact congrArg (Prod.mk a) hserves.symm
  | ask c resume ih =>
    obtain ⟨reply, rest, rfl, hrest⟩ := makes_ask.1 h
    obtain ⟨hreply, hserves⟩ := hserves
    have hreply : reply = (w.perform c).1 := hreply
    subst hreply
    exact ih _ hrest hserves

namespace StageM

/-- What holds of the result, the streams and the world when a stage has run in a world. -/
def runs (x : StageM α) (Q : Except Fault α → Streams → World → Prop) (σ : Streams) (w : World) : Prop :=
  Q (Job.run (x σ) w).1.1 (Job.run (x σ) w).1.2 (Job.run (x σ) w).2

variable {Q : Except Fault α → Streams → World → Prop} {σ : Streams} {w : World}

@[simp] theorem runs_pure (a : α) : runs (pure a) Q σ w ↔ Q (.ok a) σ w := Iff.rfl

@[simp] theorem runs_throw (fault : Fault) : runs (throw fault : StageM α) Q σ w ↔ Q (.error fault) σ w := Iff.rfl

theorem runs_mono {P : Except Fault α → Streams → World → Prop} {x : StageM α}
    (h : ∀ result after w', P result after w' → Q result after w') (hx : runs x P σ w) : runs x Q σ w :=
  h _ _ _ hx

theorem runs_and {P : Except Fault α → Streams → World → Prop} {x : StageM α} (hP : runs x P σ w) (hQ : runs x Q σ w) :
    runs x (fun result after w' => P result after w' ∧ Q result after w') σ w :=
  ⟨hP, hQ⟩

theorem runs_bind {x : StageM β} {f : β → StageM α} {R : Except Fault β → Streams → World → Prop}
    (hx : runs x R σ w) (hok : ∀ b after w', R (.ok b) after w' → runs (f b) Q after w')
    (herror : ∀ fault after w', R (.error fault) after w' → Q (.error fault) after w') : runs (x >>= f) Q σ w := by
  unfold runs at hx ⊢
  have hrun : Job.run ((x >>= f) σ) w = _ := Job.run_bind (x σ) _ w
  rw [hrun]
  rcases hstep : Job.run (x σ) w with ⟨⟨result, after⟩, w'⟩
  rw [hstep] at hx
  cases result with
  | ok b => exact hok b after w' hx
  | error fault => exact herror fault after w' hx

@[simp] theorem runs_get_bind {f : Streams → StageM α} : runs (get >>= f) Q σ w ↔ runs (f σ) Q σ w := Iff.rfl

@[simp] theorem runs_set_bind {new : Streams} {f : PUnit → StageM α} :
    runs (set new >>= f) Q σ w ↔ runs (f ⟨⟩) Q new w := Iff.rfl

@[simp] theorem runs_modify_bind {g : Streams → Streams} {f : PUnit → StageM α} :
    runs (modify g >>= f) Q σ w ↔ runs (f ⟨⟩) Q (g σ) w := Iff.rfl

@[simp] theorem runs_modify {g : Streams → Streams} {Q : Except Fault PUnit → Streams → World → Prop} :
    runs (modify g) Q σ w ↔ Q (.ok ⟨⟩) (g σ) w := Iff.rfl

@[simp] theorem runs_throw_bind {fault : Fault} {f : β → StageM α} :
    runs ((throw fault : StageM β) >>= f) Q σ w ↔ Q (.error fault) σ w := Iff.rfl

@[simp] theorem runs_call_bind {c : Call} {f : c.Reply → StageM α} :
    runs (call c >>= f) Q σ w ↔ runs (f (w.perform c).1) Q σ (w.perform c).2 := Iff.rfl

theorem runs_attempt_bind {x : StageM β} {f : Except Fault β → StageM α}
    {R : Except Fault β → Streams → World → Prop} (hx : runs x R σ w)
    (hf : ∀ result after w', R result after w' → runs (f result) Q after w') : runs (attempt x >>= f) Q σ w := by
  have hattempt : runs (attempt x) (fun result after w' => ∃ r, result = .ok r ∧ R r after w') σ w := by
    unfold runs at hx ⊢
    have hrun : Job.run (attempt x σ) w = _ := Job.run_bind (x σ) _ w
    rw [hrun]
    exact ⟨_, rfl, hx⟩
  refine runs_bind hattempt ?_ ?_
  · rintro r after w' ⟨_, ⟨⟩, hR⟩
    exact hf r after w' hR
  · rintro fault after w' ⟨_, ⟨⟩, -⟩

theorem exists_run {x : StageM α} (h : runs x Q σ w) :
    ∃ result after w', Job.run (x σ) w = ((result, after), w') ∧ Q result after w' :=
  ⟨_, _, _, rfl, h⟩

theorem runs_of_makes {x : StageM α} {trace : List Exchange} {result : Except Fault α} {after : Streams} {w' : World}
    (hmakes : makes x σ trace result after) (hserves : w.Serves trace w') (h : runs x Q σ w) : Q result after w' := by
  unfold runs at h
  rwa [Job.run_of_makes (makes_iff.1 hmakes) hserves] at h

end StageM

-- From here on the rules are used.
attribute [irreducible] StageM.runs

end Conch
