-- SUMMARY: Jobs that keep to a contract about their calls, with an account of the files that they hold open.
import Conch.Proofs.System.Later
import Conch.Proofs.System.WeakestPre

/-!
# Tracking calls and files

A contract says which calls may be made and which replies are to be reckoned with.
`Job.tracked` says of a job that all its calls are such calls, and at its end `Q`
holds of its result and of the files that it has opened and not closed again. As
with `Job.wp` the rules follow the structure of a job.

`Job.yields` follows one open file: when the job is done its result meets a
condition, unless the job has closed the file before. A job that accounts for its
files yields every file it holds. A file that was closed stays closed, whatever
calls are made.
-/

namespace Conch

variable {α β : Type}

/-! ## Contracts -/

/-- A file that was opened under a path and has not been closed since. -/
structure Opening where
  handle : Handle
  path : String
  mode : FileSystem.Mode
  deriving DecidableEq, Repr

/-- The files that are held open after a call and its reply. -/
def Call.holds : (c : Call) → c.Reply → List Opening → List Opening
  | .openFile _ path mode, .ok h, held => ⟨h, path, mode⟩ :: held
  | .close h, _, held => held.eraseP (·.handle = h)
  | _, _, held => held

/-- A file that is held stays so until it is closed. -/
theorem Call.mem_holds {c : Call} {o : Opening} {held : List Opening} (hc : c ≠ .close o.handle)
    (ho : o ∈ held) (reply : c.Reply) : o ∈ c.holds reply held := by
  unfold holds
  split
  · exact List.mem_cons_of_mem _ ho
  · rename_i h
    refine (List.mem_eraseP_of_neg ?_).2 ho
    rw [decide_eq_true_eq]
    exact fun hsame => hc (by rw [hsame])
  · exact ho

/-- Which calls may be made, and what they may be answered with. -/
structure Contract where
  asks : Call → Prop
  gets : (c : Call) → c.Reply → Prop

variable {C : Contract}

/-! ## Jobs -/

namespace Job

/-- What has to be shown of the files that are held so that a job keeps to its contract and `Q` holds of its
    result and of the files that it holds at the end. -/
def tracked (C : Contract) : Job α → (α → List Opening → Prop) → List Opening → Prop
  | done a, Q, held => Q a held
  | ask c resume, Q, held =>
    C.asks c ∧ ∀ reply, C.gets c reply → (resume reply).tracked C Q (c.holds reply held)

variable {Q : α → List Opening → Prop} {held : List Opening}

@[simp] theorem tracked_done (a : α) : (done a).tracked C Q held ↔ Q a held := Iff.rfl

@[simp] theorem tracked_ask (c : Call) (resume : c.Reply → Job α) :
    (ask c resume).tracked C Q held ↔
      C.asks c ∧ ∀ reply, C.gets c reply → (resume reply).tracked C Q (c.holds reply held) := Iff.rfl

@[simp] theorem tracked_pure (a : α) : (pure a : Job α).tracked C Q held ↔ Q a held := Iff.rfl

@[simp] theorem tracked_bind (j : Job β) (f : β → Job α) :
    (j >>= f).tracked C Q held ↔ j.tracked C (fun b => (f b).tracked C Q) held := by
  show (j.bind f).tracked C Q held ↔ _
  induction j generalizing held with
  | done b => exact Iff.rfl
  | ask c resume ih =>
    exact and_congr_right fun _ => forall_congr' fun reply => forall_congr' fun _ => ih reply

theorem tracked_mono {P : α → List Opening → Prop} {j : Job α} (h : ∀ a held, P a held → Q a held)
    (hj : j.tracked C P held) : j.tracked C Q held := by
  induction j generalizing held with
  | done a => exact h a held hj
  | ask c resume ih => exact ⟨hj.1, fun reply hreply => ih reply (hj.2 reply hreply)⟩

theorem tracked_and {P : α → List Opening → Prop} {j : Job α} (hP : j.tracked C P held) (hQ : j.tracked C Q held) :
    j.tracked C (fun a held => P a held ∧ Q a held) held := by
  induction j generalizing held with
  | done a => exact ⟨hP, hQ⟩
  | ask c resume ih => exact ⟨hP.1, fun reply hreply => ih reply (hP.2 reply hreply) (hQ.2 reply hreply)⟩

/-- A job that makes only calls of the contract and leaves the files that are held alone. -/
def Heeds (C : Contract) (P : α → Prop) (j : Job α) : Prop :=
  ∀ held, j.tracked C (fun a after => P a ∧ after = held) held

theorem heeds_pure {P : α → Prop} {a : α} (h : P a) : (pure a : Job α).Heeds C P :=
  fun _ => ⟨h, rfl⟩

theorem heeds_call_bind {P : α → Prop} {c : Call} {f : c.Reply → Job α} (hc : C.asks c)
    (hheld : ∀ reply held, c.holds reply held = held) (hf : ∀ reply, C.gets c reply → (f reply).Heeds C P) :
    (call c >>= f).Heeds C P := by
  intro held
  refine ⟨hc, fun reply hreply => ?_⟩
  rw [hheld]
  exact hf reply hreply held

theorem heeds_bind {P : α → Prop} {R : β → Prop} {j : Job β} {f : β → Job α} (hj : j.Heeds C R)
    (hf : ∀ b, R b → (f b).Heeds C P) : (j >>= f).Heeds C P := by
  intro held
  refine (tracked_bind j f).2 (tracked_mono ?_ (hj held))
  rintro b _ ⟨hb, rfl⟩
  exact hf b hb _

/-- When a job is done its result meets `R`, unless the file `h` was closed before. -/
def yields (E : (c : Call) → c.Reply → Prop) (h : Handle) (R : α → Prop) : Job α → Prop
  | done a => R a
  | ask c resume => c = .close h ∨ ∀ reply, E c reply → (resume reply).yields E h R

variable {E : (c : Call) → c.Reply → Prop} {h : Handle} {R : α → Prop}

@[simp] theorem yields_done (a : α) : (done a).yields E h R ↔ R a := Iff.rfl

@[simp] theorem yields_ask (c : Call) (resume : c.Reply → Job α) :
    (ask c resume).yields E h R ↔ c = .close h ∨ ∀ reply, E c reply → (resume reply).yields E h R := Iff.rfl

theorem yields_of_wp {j : Job α} (hj : j.wp R) : j.yields E h R := by
  induction j with
  | done a => exact (wp_done a R).1 hj
  | ask c resume ih => exact .inr fun reply _ => ih reply ((wp_ask c resume R).1 hj reply)

/-- A file that is held is yielded at the end or closed before. -/
theorem yields_of_tracked {j : Job α} (hQ : ∀ a held, Q a held → (∃ o ∈ held, o.handle = h) → R a)
    (hj : j.tracked C Q held) (hheld : ∃ o ∈ held, o.handle = h) : j.yields C.gets h R := by
  induction j generalizing held with
  | done a => exact hQ a held hj hheld
  | ask c resume ih =>
    obtain ⟨o, ho, rfl⟩ := hheld
    by_cases hc : c = .close o.handle
    · exact .inl hc
    · exact .inr fun reply hreply => ih reply (hj.2 reply hreply) ⟨o, Call.mem_holds hc ho reply, rfl⟩

end Job

/-! ## Stages -/

namespace StageM

/-- What has to hold of the streams and of the files that are held so that what a stage does keeps to its
    contract and `Q` holds afterwards. -/
def tracked (C : Contract) (x : StageM α) (Q : Except Fault α → Streams → List Opening → Prop) (streams : Streams)
    (held : List Opening) : Prop :=
  Job.tracked C (x streams) (fun r => Q r.1 r.2) held

section Rules

variable {Q : Except Fault α → Streams → List Opening → Prop} {streams : Streams} {held : List Opening}

@[simp] theorem tracked_pure (a : α) : tracked C (pure a) Q streams held ↔ Q (.ok a) streams held := Iff.rfl

@[simp] theorem tracked_throw (fault : Fault) :
    tracked C (throw fault : StageM α) Q streams held ↔ Q (.error fault) streams held := Iff.rfl

theorem tracked_bind {x : StageM β} {f : β → StageM α} {R : Except Fault β → Streams → List Opening → Prop}
    (hx : tracked C x R streams held)
    (hok : ∀ b after held', R (.ok b) after held' → tracked C (f b) Q after held')
    (herror : ∀ fault after held', R (.error fault) after held' → Q (.error fault) after held') :
    tracked C (x >>= f) Q streams held := by
  refine (Job.tracked_bind (x streams) _).2 (Job.tracked_mono ?_ hx)
  rintro ⟨result, after⟩ held' hR
  cases result with
  | ok b => exact hok b after held' hR
  | error fault => exact herror fault after held' hR

@[simp] theorem tracked_get_bind {f : Streams → StageM α} :
    tracked C (get >>= f) Q streams held ↔ tracked C (f streams) Q streams held := Iff.rfl

@[simp] theorem tracked_set_bind {new : Streams} {f : PUnit → StageM α} :
    tracked C (set new >>= f) Q streams held ↔ tracked C (f ⟨⟩) Q new held := Iff.rfl

@[simp] theorem tracked_modify_bind {g : Streams → Streams} {f : PUnit → StageM α} :
    tracked C (modify g >>= f) Q streams held ↔ tracked C (f ⟨⟩) Q (g streams) held := Iff.rfl

@[simp] theorem tracked_throw_bind {fault : Fault} {f : β → StageM α} :
    tracked C ((throw fault : StageM β) >>= f) Q streams held ↔ Q (.error fault) streams held := Iff.rfl

theorem tracked_call_bind {c : Call} {f : c.Reply → StageM α} (hc : C.asks c)
    (hf : ∀ reply, C.gets c reply → tracked C (f reply) Q streams (c.holds reply held)) :
    tracked C (call c >>= f) Q streams held := ⟨hc, hf⟩

theorem tracked_liftM {j : Job α} (hj : j.tracked C (fun a => Q (.ok a) streams) held) :
    tracked C (liftM j) Q streams held := by
  show Job.tracked C ((j >>= fun a => pure (a, streams)) >>= fun p => pure (Except.ok p.1, p.2)) _ held
  rw [Job.tracked_bind, Job.tracked_bind]
  exact hj

theorem tracked_mono {P : Except Fault α → Streams → List Opening → Prop} {x : StageM α}
    (h : ∀ result after held', P result after held' → Q result after held')
    (hx : tracked C x P streams held) : tracked C x Q streams held :=
  Job.tracked_mono (fun r => h r.1 r.2) hx

theorem tracked_attempt {Q : Except Fault (Except Fault α) → Streams → List Opening → Prop} {x : StageM α}
    (hx : tracked C x (fun result => Q (.ok result)) streams held) : tracked C (attempt x) Q streams held :=
  (Job.tracked_bind (x streams) _).2 hx

theorem tracked_attempt_bind {x : StageM β} {f : Except Fault β → StageM α}
    {P : Except Fault β → Streams → List Opening → Prop} (hx : tracked C x P streams held)
    (hf : ∀ result after held', P result after held' → tracked C (f result) Q after held') :
    tracked C (attempt x >>= f) Q streams held := by
  refine tracked_bind (R := fun result after held' => ∃ r, result = .ok r ∧ P r after held') ?_ ?_ ?_
  · exact tracked_attempt (tracked_mono (fun result after held' hP => ⟨result, rfl, hP⟩) hx)
  · rintro result after held' ⟨r, ⟨⟩, hP⟩
    exact hf result after held' hP
  · rintro fault after held' ⟨r, ⟨⟩, -⟩

end Rules

/-- What a stage does keeps to its contract and keeps a condition on the streams and the files that are held,
    also if a fault ends it. -/
def Heeds (C : Contract) (I : Streams → List Opening → Prop) (x : StageM α) : Prop :=
  ∀ streams held, I streams held → tracked C x (fun _ after held' => I after held') streams held

section Heeds

variable {I : Streams → List Opening → Prop}

theorem heeds_pure (a : α) : Heeds C I (pure a) := fun _ _ h => h

theorem heeds_throw (fault : Fault) : Heeds C I (throw fault : StageM α) := fun _ _ h => h

theorem heeds_modify {f : Streams → Streams} (hf : ∀ streams held, I streams held → I (f streams) held) :
    Heeds C I (modify f) := fun streams held h => hf streams held h

theorem heeds_bind {x : StageM β} {f : β → StageM α} (hx : Heeds C I x) (hf : ∀ b, Heeds C I (f b)) :
    Heeds C I (x >>= f) := by
  intro streams held h
  exact tracked_bind (hx streams held h) (fun b => hf b) fun _ _ _ hafter => hafter

/-- A call that neither opens nor closes anything. -/
theorem heeds_call_bind {c : Call} {f : c.Reply → StageM α} (hc : C.asks c)
    (hheld : ∀ reply held, c.holds reply held = held) (hf : ∀ reply, C.gets c reply → Heeds C I (f reply)) :
    Heeds C I (call c >>= f) := by
  intro streams held h
  refine tracked_call_bind hc fun reply hreply => ?_
  rw [hheld]
  exact hf reply hreply streams held h

/-- The streams that are looked at meet the condition too. -/
theorem heeds_get_bind {f : Streams → StageM α}
    (hf : ∀ streams held, I streams held → Heeds C I (f streams)) : Heeds C I (get >>= f) :=
  fun streams held h => hf streams held h streams held h

theorem heeds_attempt {x : StageM α} (hx : Heeds C I x) : Heeds C I (attempt x) :=
  fun streams held h => tracked_attempt (hx streams held h)

end Heeds

end StageM

-- From here on the rules are used.
attribute [irreducible] Job.tracked Job.yields

/-! ## Closed files -/

namespace World

/-- A file was opened under a number, and is closed. -/
def Closed (w : World) (h : Handle) : Prop :=
  ∃ f, w.opened[h]? = some f ∧ f.isOpen = false

variable {w w' : World} {h : Handle}

theorem Closed.of_opened (hclosed : w.Closed h) (hopened : w'.opened = w.opened) : w'.Closed h := by
  unfold Closed
  rw [hopened]
  exact hclosed

theorem Closed.set {g : Handle} {f f' : OpenFile} (hclosed : w.Closed h) (hf : w.opened[g]? = some f)
    (hshut : f.isOpen = false → f'.isOpen = false) :
    Closed { w with opened := w.opened.setIfInBounds g f' } h := by
  obtain ⟨k, hk, hkshut⟩ := hclosed
  by_cases heq : g = h
  · subst heq
    rw [hf] at hk
    cases hk
    exact ⟨f', Array.getElem?_setIfInBounds_self_of_lt (Array.getElem?_eq_some_iff.1 hf).1, hshut hkshut⟩
  · exact ⟨k, (Array.getElem?_setIfInBounds_ne heq).trans hk, hkshut⟩

theorem Closed.push (hclosed : w.Closed h) (f : OpenFile) : Closed { w with opened := w.opened.push f } h := by
  obtain ⟨k, hk, hkshut⟩ := hclosed
  have hbound := (Array.getElem?_eq_some_iff.1 hk).1
  refine ⟨k, ?_, hkshut⟩
  show (w.opened.push f)[h]? = some k
  rw [Array.getElem?_push, if_neg (Nat.ne_of_lt hbound)]
  exact hk

theorem Closed.seek {g : Handle} {f : OpenFile} (hclosed : w.Closed h) (hf : w.openFile? g = some f)
    (position : Nat) : (w.seek g f position).Closed h :=
  hclosed.set (openFile?_eq_some hf).1 id

theorem Closed.close (hclosed : w.Closed h) (g : Handle) : (w.close g).Closed h := by
  unfold World.close
  split
  · exact hclosed.set ‹_› fun _ => rfl
  · exact hclosed

/-- No call opens a closed file again. -/
theorem Closed.perform (hclosed : w.Closed h) (c : Call) : (w.perform c).2.Closed h := by
  cases c with
  | read source limit =>
    simp only [World.perform, World.read]
    split
    · split
      · unfold readFile
        repeat' split
        all_goals first
          | exact hclosed.seek ‹_› _
          | exact hclosed
      · exact hclosed
    all_goals exact hclosed.of_opened rfl
  | write sink data =>
    simp only [World.perform, World.write]
    split
    · split
      · rename_i hf
        unfold writeFile
        split
        · exact hclosed
        split
        · exact hclosed
        split
        · exact hclosed.set (openFile?_eq_some hf).1 id
        all_goals exact hclosed.of_opened rfl
      · exact hclosed
    all_goals exact hclosed.of_opened rfl
  | close g => exact hclosed.close g
  | openFile base path mode =>
    simp only [World.perform, openPath]
    split
    · exact hclosed
    · exact hclosed.push _
  | reopen g mode =>
    simp only [World.perform, World.reopen]
    split
    · exact hclosed
    · exact hclosed.push _
  | seekEnd g =>
    simp only [World.perform, World.seekEnd]
    split
    · exact hclosed
    · split
      · exact hclosed.seek ‹_› _
      all_goals exact hclosed
  | goBack g count =>
    simp only [World.perform, World.goBack]
    split
    · exact hclosed
    · split
      · exact hclosed.seek ‹_› _
      · exact hclosed
  | joint => exact hclosed.of_opened rfl
  | change base what =>
    simp only [World.perform]
    split
    · exact hclosed.of_opened rfl
    · exact hclosed
  | _ => exact hclosed

/-- Closing a file that was opened closes it. -/
theorem closed_close (hbound : h < w.opened.size) : (w.close h).Closed h := by
  unfold World.close
  rw [Array.getElem?_eq_getElem hbound]
  exact ⟨_, Array.getElem?_setIfInBounds_self_of_lt hbound, rfl⟩

theorem size_close (w : World) (g : Handle) : (w.close g).opened.size = w.opened.size := by
  unfold World.close
  split
  · exact Array.size_setIfInBounds
  · rfl

theorem Closed.closeAll (hclosed : w.Closed h) (handles : List Handle) : (handles.foldl World.close w).Closed h := by
  induction handles generalizing w with
  | nil => exact hclosed
  | cons g rest ih => exact ih (hclosed.close g)

/-- Closing several files closes each that was opened. -/
theorem closed_closeAll {handles : List Handle} (hmem : h ∈ handles) (hbound : h < w.opened.size) :
    (handles.foldl World.close w).Closed h := by
  induction handles generalizing w with
  | nil => cases hmem
  | cons g rest ih =>
    rcases List.mem_cons.1 hmem with rfl | hrest
    · exact (closed_close hbound).closeAll rest
    · exact ih hrest (by rwa [size_close])

end World

end Conch
