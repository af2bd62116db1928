-- SUMMARY: The last stage of a pipeline beside stages that leave alone what it touches: it does what it does on its own.
import Conch.Proofs.Pipeline.Company
import Conch.Proofs.Pipeline.Waiting
import Conch.Proofs.Stage.Phases

/-!
# A stage on its own and at the end of a pipeline

A stage can be run on its own or as the last stage of a pipeline. If the other
stages leave every piece of the world alone that this stage touches, and none of
them comes to a fault, then a stage that is a built-in command, or has no process,
comes to the same both times: the same outcome, except that a request to end is
only a status in a pipeline, and the same files and console.

`Network.Beside` are the runs of a pipeline in which the moves of the last stage
touch only the pieces of a set `F` and all other moves leave these pieces as they
are. `Follows` is the invariant: what the last stage has still to do is paired with
what the stage has still to do on its own, in a world that is alike. `Network.Progress`
says how far the last stage is, and one move at a time keeps it.
-/

namespace Conch

/-! ## Following -/

section Follows

variable {α β : Type} {F : Touch → Prop} {A : Ties → α → β → Prop} {J : Job α} {w u u' : World}

/-- A job that is left to do in a world is what a job `J` that has another world to itself will do. -/
def Follows (F : Touch → Prop) (A : Ties → α → β → Prop) (J : Job α) (w : World) (k : Job β) (u : World) : Prop :=
  ∃ T v j, Job.Paired F A T j k ∧ World.Alike F T v u ∧ j.run v = J.run w

/-- Others may do what leaves the pieces of `F` as they are. -/
theorem Follows.beside {k : Job β} (h : Follows F A J w k u) (hlater : u.Later True u')
    (hsame : ∀ t, F t → u.Same u' t) : Follows F A J w k u' := by
  obtain ⟨T, v, j, hpaired, halike, hrun⟩ := h
  exact ⟨T, v, j, hpaired, halike.beside hlater hsame, hrun⟩

theorem Follows.not_onPipe {c : Call} {resume : c.Reply → Job β} (h : Follows F A J w (.ask c resume) u) :
    ¬ c.OnPipe := by
  obtain ⟨T, v, j, hpaired, -, -⟩ := h
  cases j with
  | done a => exact absurd hpaired Job.not_paired_done_ask
  | ask c₀ resume₀ => exact (Job.paired_ask_iff.1 hpaired).1

/-- A call is made in both worlds. -/
theorem Follows.call {c : Call} {resume : c.Reply → Job β} (h : Follows F A J w (.ask c resume) u)
    (hF : ∀ t ∈ u.touches c, F t) : Follows F A J w (resume (u.perform c).1) (u.perform c).2 := by
  obtain ⟨T, v, j, hpaired, halike, hrun⟩ := h
  cases j with
  | done a => exact absurd hpaired Job.not_paired_done_ask
  | ask c₀ resume₀ =>
    obtain ⟨T', -, halike', hpaired'⟩ := (Job.paired_ask_iff.1 hpaired).2 T (.refl T) v u halike hF
    exact ⟨T', _, _, hpaired', halike', hrun⟩

/-- At the end both are done. -/
theorem Follows.done {b : β} (h : Follows F A J w (.done b) u) :
    ∃ T, A T (J.run w).1 b ∧ World.Alike F T (J.run w).2 u := by
  obtain ⟨T, v, j, hpaired, halike, hrun⟩ := h
  cases j with
  | done a =>
    rw [← hrun]
    exact ⟨T, Job.paired_done_iff.1 hpaired, halike⟩
  | ask c resume => exact absurd hpaired Job.not_paired_ask_done

end Follows

/-! ## Runs beside others -/

/-- The call that a job makes next. -/
def Job.next? {α : Type} : Job α → Option Call
  | .done _ => none
  | .ask c _ => some c

/-- What a stage has still to do. -/
def Task.rest : Task → Job StageEnd
  | .running job => job
  | .ended e => .done e

namespace Network

/-- The call that a move makes, if it makes one. -/
def callOf (net : Network) : Move → Option Call
  | .start _ _ => net.starting.bind Job.next?
  | .stage i _ => net.members[i]?.bind fun m => m.task.rest.next?
  | _ => none

/-- What a move touches. -/
def touched (net : Network) (move : Move) : List Touch :=
  ((net.callOf move).map net.world.touches).getD []

/-- A move is one of the last stage: it is being started or runs. -/
def MovesLast (p : Pipeline) (net : Network) : Move → Prop
  | .start _ _ => net.members.length + 1 = p.stages.length
  | .stage i _ => i + 1 = p.stages.length
  | _ => False

instance (p : Pipeline) (net : Network) : DecidablePred (net.MovesLast p)
  | .start _ _ => inferInstanceAs (Decidable (_ = _))
  | .stage _ _ => inferInstanceAs (Decidable (_ = _))
  | .relay _ _ => inferInstanceAs (Decidable False)
  | .wait => inferInstanceAs (Decidable False)

/-- What a pipeline can come to if its last stage touches only the pieces of `F` and nothing else that
    happens changes them. -/
inductive Beside (F : Touch → Prop) (programs : Programs) (ctx : Context) (p : Pipeline) (w : World) :
    Network → Prop
  | ofPipeline : Beside F programs ctx p w (.ofPipeline p w)
  | step {net next : Network} (move : Move) (hnet : Beside F programs ctx p w net)
      (hstep : net.step programs ctx move = some next)
      (hown : net.MovesLast p move → ∀ t ∈ net.touched move, F t)
      (hother : ¬ net.MovesLast p move → ∀ t, F t → net.world.Same next.world t) :
    Beside F programs ctx p w next

/-- A stage came to a fault: it could not be started, or it ended so. -/
def FaultOf (net : Network) (i : Nat) (fault : Fault) : Prop :=
  net.aborted = some fault ∧ net.members.length = i ∨
    ∃ m owned, net.members[i]? = some m ∧ m.task = .ended ⟨.error fault, owned⟩

variable {F : Touch → Prop} {programs : Programs} {ctx : Context} {p : Pipeline} {s : Stage} {w : World}
  {net next : Network} {k : Nat}

theorem Beside.reachable (h : Beside F programs ctx p w net) : Reachable programs ctx p w net := by
  induction h with
  | ofPipeline => exact .ofPipeline
  | step move hnet hstep hown hother ih => exact .step move ih hstep

/-! ## Moves -/

/-- Whatever moves, the world after it is a later one. -/
theorem step_later {move : Move} (h : net.step programs ctx move = some next) :
    net.world.Later True next.world := by
  cases move with
  | start inputSize outputSize =>
    cases startMove_of_start h with
    | called hstarting => exact World.perform_later _ fun _ _ => trivial
    | aborted hstarting => exact .refl _
    | joined hstarting => exact .refl _
    | begun inputSize outputSize hstarting haborted hwaiting => exact .refl _
  | stage i wish =>
    obtain ⟨m, m', world, -, hmove, rfl⟩ := stage_cases h
    cases (Member.proceeded_of_step hmove : m.Proceeded True net.world m' world) with
    | ended htask htask' hw => exact hw ▸ .refl _
    | answered htask htask' hanswers => exact hanswers.later fun _ _ => trivial
    | writing htask htask' hw => exact hw ▸ .refl _
  | relay i wish =>
    obtain ⟨c, before, after, r, -, -, -, -, rfl⟩ := relay_cases h
    exact .refl _
  | wait =>
    obtain ⟨statuses, relaysSeen, fault, isOver, rfl⟩ := wait_cases h
    exact .refl _

/-! ## How far the last stage is -/

/-- How far the last stage, `s` at place `k`, is in a network, and that it does what it does on its own. -/
inductive Progress (F : Touch → Prop) (programs : Programs) (ctx : Context) (s : Stage) (w : World) (k : Nat)
    (net : Network) : Prop
  /-- It is not its turn yet. -/
  | waiting {T : Ties} (hplace : net.members.length + net.starting.toList.length ≤ k)
      (haborted : net.aborted ≠ none → net.members.length < k) (halike : World.Alike F T w net.world)
  | starting {job : Job Started} (hplace : net.members.length = k) (hstarting : net.starting = some job)
      (hfollows : Follows F (fun _ => Stage.StartedAs ctx s) (s.begin programs ctx) w job net.world)
  /-- It was started, and runs or has ended. -/
  | working {m : Member} (hm : net.members[k]? = some m)
      (hfollows : Follows F (fun _ => Stage.EndsAs ctx) (s.work programs ctx) w m.task.rest net.world)
  /-- It could not be started. -/
  | failed {fault : Fault} {owned : List Handle} (hplace : net.members.length = k)
      (hstarting : net.starting = none) (haborted : net.aborted = some fault)
      (hfollows : Follows F (fun _ => Stage.EndsAs ctx) (s.work programs ctx) w (.done ⟨.error fault, owned⟩) net.world)

/-- A stage that has been started has its command still to run, if it is there. -/
theorem follows_of_started {started : Started} {u : World} (hnot : ¬ s.Launches programs ctx w)
    (h : Follows F (fun _ => Stage.StartedAs ctx s) (s.begin programs ctx) w (.done started) u) :
    (∀ m, started = .ok m →
      Follows F (fun _ => Stage.EndsAs ctx) (s.work programs ctx) w m.task.rest u) ∧
    (∀ fault owned, started = .error (fault, owned) →
      Follows F (fun _ => Stage.EndsAs ctx) (s.work programs ctx) w (.done ⟨.error fault, owned⟩) u) := by
  obtain ⟨T, hstarted, halike⟩ := h.done
  have hrun : (s.work programs ctx).run w =
      (s.proceed ctx ((s.begin programs ctx).run w).1).run ((s.begin programs ctx).run w).2 :=
    Job.run_bind _ _ _
  generalize hbegun : ((s.begin programs ctx).run w).1 = begun at hstarted hrun
  have hfollows : ∀ {job : Job StageEnd}, Job.Paired F (fun _ => Stage.EndsAs ctx) T (s.proceed ctx begun) job →
      Follows F (fun _ => Stage.EndsAs ctx) (s.work programs ctx) w job u :=
    fun hpaired => ⟨T, _, _, hpaired, halike, hrun.symm⟩
  cases hstarted with
  | builtin htask =>
    refine ⟨?_, fun fault owned hstarted => by cases hstarted⟩
    rintro m ⟨⟩
    rw [htask]
    exact hfollows (Stage.proceed_paired _)
  | absent code streams owned =>
    refine ⟨?_, fun fault owned hstarted => by cases hstarted⟩
    rintro m ⟨⟩
    exact hfollows (Job.paired_done_iff.2 rfl)
  | fault fault streams owned =>
    refine ⟨fun m hstarted => (by cases hstarted), ?_⟩
    rintro fault owned ⟨⟩
    exact hfollows (Job.paired_done_iff.2 rfl)
  | process job streams started =>
    -- What a process would do is not paired with anything.
    exact absurd (Stage.launches_of_begin hbegun) hnot

namespace Progress

/-- In the beginning every stage waits. -/
theorem ofPipeline (hsound : w.files.Sound) : (ofPipeline p w).Progress F programs ctx s w k := by
  refine .waiting (T := w.files.selfTies hsound) (Nat.zero_le _) (fun haborted => absurd rfl haborted) ?_
  refine ⟨w.files.alike_self hsound, ⟨fun hh => hh.elim, fun hh => hh.elim⟩, fun _ => rfl, fun _ => rfl, fun _ => rfl⟩

/-- A stage that is being started is the one whose turn it is. -/
theorem place_of_starting (h : net.Progress F programs ctx s w k) {job : Job Started}
    (hstarting : net.starting = some job) :
    (net.members.length < k ∧ ∃ T, World.Alike F T w net.world) ∨
    (net.members.length = k ∧
      Follows F (fun _ => Stage.StartedAs ctx s) (s.begin programs ctx) w job net.world) ∨
    ∃ m, net.members[k]? = some m ∧
      Follows F (fun _ => Stage.EndsAs ctx) (s.work programs ctx) w m.task.rest net.world := by
  cases h with
  | waiting hplace haborted halike =>
    rw [hstarting] at hplace
    exact .inl ⟨hplace, _, halike⟩
  | starting hplace hstarting' hfollows =>
    rw [hstarting] at hstarting'
    cases hstarting'
    exact .inr (.inl ⟨hplace, hfollows⟩)
  | working hm hfollows => exact .inr (.inr ⟨_, hm, hfollows⟩)
  | failed hplace hstarting' haborted hfollows =>
    rw [hstarting] at hstarting'
    cases hstarting'

/-- One call on the way to a start, made by the last stage or by another. -/
theorem called (h : net.Progress F programs ctx s w k) {c : Call} {resume : c.Reply → Job Started}
    (hstarting : net.starting = some (.ask c resume))
    (hown : net.members.length = k → ∀ t ∈ net.world.touches c, F t)
    (hother : net.members.length ≠ k → ∀ t, F t → net.world.Same (net.world.perform c).2 t) :
    Progress F programs ctx s w k
      { net with world := (net.world.perform c).2, starting := some (resume (net.world.perform c).1) } := by
  have hlater : net.world.Later True (net.world.perform c).2 := World.perform_later c fun _ _ => trivial
  rcases h.place_of_starting hstarting with ⟨hless, T, halike⟩ | ⟨hplace, hfollows⟩ | ⟨m, hm, hfollows⟩
  · exact .waiting hless (fun _ => hless) (halike.beside hlater (hother (Nat.ne_of_lt hless)))
  · exact .starting hplace rfl (hfollows.call (hown hplace))
  · have hbound := (List.getElem?_eq_some_iff.1 hm).1
    exact .working hm (hfollows.beside hlater (hother (Nat.ne_of_gt hbound)))

/-- A stage could not be started. -/
theorem aborted (h : net.Progress F programs ctx s w k) (hnot : ¬ s.Launches programs ctx w) {fault : Fault}
    {owned : List Handle} (hstarting : net.starting = some (.done (.error (fault, owned)))) :
    Progress F programs ctx s w k { net with starting := none, aborted := some fault, leftover := owned } := by
  rcases h.place_of_starting hstarting with ⟨hless, T, halike⟩ | ⟨hplace, hfollows⟩ | ⟨m, hm, hfollows⟩
  · exact .waiting (Nat.le_of_lt hless) (fun _ => hless) halike
  · exact .failed hplace rfl rfl ((follows_of_started hnot hfollows).2 fault owned rfl)
  · exact .working hm hfollows

/-- A stage was started and takes its place. -/
theorem joined (h : net.Progress F programs ctx s w k) (hnot : ¬ s.Launches programs ctx w)
    (haborted : net.aborted = none) {m : Member} (hstarting : net.starting = some (.done (.ok m))) :
    (net.join m).Progress F programs ctx s w k := by
  rcases h.place_of_starting hstarting with ⟨hless, T, halike⟩ | ⟨hplace, hfollows⟩ | ⟨n, hn, hfollows⟩
  · refine .waiting ?_ (fun haborted' => absurd haborted haborted') halike
    rw [join_length]
    exact hless
  · refine .working (m := m) ?_ ((follows_of_started hnot hfollows).1 m rfl)
    rw [← hplace]
    exact List.getElem?_concat_length
  · have hbound := (List.getElem?_eq_some_iff.1 hn).1
    exact .working ((List.getElem?_append_left hbound).trans hn) hfollows

/-- It is the turn of the next stage, and maybe of the last. -/
theorem begun (h : net.Progress F programs ctx s w k) (hinv : net.Invariant programs p)
    (hlength : p.stages.length = k + 1) (hs : p.stages[k]? = some s) {t : Stage} {waiting : List Stage}
    (inputSize outputSize : Nat) (hstarting : net.starting = none) (haborted : net.aborted = none)
    (hwaiting : net.waiting = t :: waiting) :
    Progress F programs ctx s w k
      { net with
        waiting
        starting := some (startStage programs ctx net.members.isEmpty waiting.isEmpty inputSize outputSize t) } := by
  cases h with
  | waiting hplace haborted' halike =>
    rw [hstarting] at hplace
    rcases Nat.lt_or_eq_of_le (show net.members.length ≤ k from hplace) with hless | hplace'
    · exact .waiting hless haborted' halike
    · have hdrop : t :: waiting = [s] := by
        rw [← hwaiting, hinv.waiting haborted, hstarting]
        show p.stages.drop (net.members.length + 0) = [s]
        rw [hplace', Nat.add_zero, List.drop_eq_getElem?_toList_append, hs, ← hlength, List.drop_length]
        rfl
      cases hdrop
      exact .starting hplace' rfl ⟨_, _, _, Stage.begin_paired _ _ _, halike, rfl⟩
  | starting hplace hstarting' hfollows =>
    rw [hstarting] at hstarting'
    cases hstarting'
  | working hm hfollows => exact .working hm hfollows
  | failed hplace hstarting' haborted' hfollows =>
    rw [haborted] at haborted'
    cases haborted'

theorem start {inputSize outputSize : Nat} (h : net.Progress F programs ctx s w k)
    (hinv : net.Invariant programs p) (hlength : p.stages.length = k + 1) (hs : p.stages[k]? = some s)
    (hnot : ¬ s.Launches programs ctx w)
    (hstep : net.step programs ctx (.start inputSize outputSize) = some next)
    (hown : net.MovesLast p (.start inputSize outputSize) → ∀ t ∈ net.touched (.start inputSize outputSize), F t)
    (hother : ¬ net.MovesLast p (.start inputSize outputSize) → ∀ t, F t → net.world.Same next.world t) :
    next.Progress F programs ctx s w k := by
  have hlast : net.MovesLast p (.start inputSize outputSize) ↔ net.members.length = k := by
    show net.members.length + 1 = p.stages.length ↔ _
    omega
  rw [hlast] at hown hother
  cases startMove_of_start hstep with
  | called hstarting =>
    refine h.called hstarting (fun hplace => ?_) hother
    simpa [touched, callOf, hstarting, Job.next?] using hown hplace
  | aborted hstarting => exact h.aborted hnot hstarting
  | joined hstarting => exact h.joined hnot (hinv.starting _ hstarting).1 hstarting
  | begun inputSize outputSize hstarting haborted hwaiting =>
    exact h.begun hinv hlength hs inputSize outputSize hstarting haborted hwaiting

theorem stage {i wish : Nat} (h : net.Progress F programs ctx s w k) (hlength : p.stages.length = k + 1)
    (hstep : net.step programs ctx (.stage i wish) = some next)
    (hown : net.MovesLast p (.stage i wish) → ∀ t ∈ net.touched (.stage i wish), F t)
    (hother : ¬ net.MovesLast p (.stage i wish) → ∀ t, F t → net.world.Same next.world t) :
    next.Progress F programs ctx s w k := by
  have hlast : net.MovesLast p (.stage i wish) ↔ i = k := by
    show i + 1 = p.stages.length ↔ _
    omega
  rw [hlast] at hown hother
  have hlater := step_later hstep
  obtain ⟨m, m', world, hm, hmove, rfl⟩ := stage_cases hstep
  have hbound := (List.getElem?_eq_some_iff.1 hm).1
  have hcount : (net.members.set i m').length = net.members.length := List.length_set
  cases h with
  | waiting hplace haborted halike =>
    have hi : i ≠ k := by omega
    refine .waiting ?_ ?_ (halike.beside hlater (hother hi))
    · rw [hcount]
      exact hplace
    · rw [hcount]
      exact haborted
  | starting hplace hstarting hfollows =>
    have hi : i ≠ k := by omega
    exact .starting (hcount.trans hplace) hstarting (hfollows.beside hlater (hother hi))
  | failed hplace hstarting haborted hfollows =>
    have hi : i ≠ k := by omega
    exact .failed (hcount.trans hplace) hstarting haborted (hfollows.beside hlater (hother hi))
  | @working n hn hfollows =>
    by_cases hi : i = k
    · subst hi
      rw [hm] at hn
      cases hn
      refine .working (m := m') (List.getElem?_set_self hbound) ?_
      cases (Member.proceeded_of_step hmove : m.Proceeded True net.world m' world) with
      | ended htask htask' hw =>
        subst hw
        rw [htask] at hfollows
        rw [htask']
        exact hfollows
      | @answered c resume reply htask htask' hanswers =>
        rw [htask] at hfollows
        rw [htask']
        have hperformed := hanswers.performed hfollows.not_onPipe
        have hcalled := hfollows.call (by simpa [touched, callOf, hm, htask, Task.rest, Job.next?] using hown rfl)
        rw [← hperformed] at hcalled
        exact hcalled
      | writing htask htask' hw =>
        -- The last stage has no pipe to write to.
        rw [htask] at hfollows
        exact absurd trivial hfollows.not_onPipe
    · exact .working ((List.getElem?_set_ne hi).trans hn) (hfollows.beside hlater (hother hi))

theorem relay {i wish : Nat} (h : net.Progress F programs ctx s w k)
    (hstep : net.step programs ctx (.relay i wish) = some next) : next.Progress F programs ctx s w k := by
  have hkeeps := fun m hm => relay_keepsTask (j := k) (n := m) hstep hm
  obtain ⟨c, before, after, r, -, -, -, -, rfl⟩ := relay_cases hstep
  have hcount : ((net.members.set i { before with output := r.2.1 }).set (i + 1)
      { after with input := r.2.2 }).length = net.members.length := by
    rw [List.length_set, List.length_set]
  cases h with
  | waiting hplace haborted halike =>
    refine .waiting ?_ ?_ halike
    · rw [hcount]
      exact hplace
    · rw [hcount]
      exact haborted
  | starting hplace hstarting hfollows => exact .starting (hcount.trans hplace) hstarting hfollows
  | failed hplace hstarting haborted hfollows => exact .failed (hcount.trans hplace) hstarting haborted hfollows
  | @working m hm hfollows =>
    obtain ⟨m', hm', htask⟩ := hkeeps m hm
    rw [← htask] at hfollows
    exact .working hm' hfollows

theorem wait (h : net.Progress F programs ctx s w k) (hstep : net.wait = some next) :
    next.Progress F programs ctx s w k := by
  obtain ⟨statuses, relaysSeen, fault, isOver, rfl⟩ := wait_cases hstep
  cases h with
  | waiting hplace haborted halike => exact .waiting hplace haborted halike
  | starting hplace hstarting hfollows => exact .starting hplace hstarting hfollows
  | working hm hfollows => exact .working hm hfollows
  | failed hplace hstarting haborted hfollows => exact .failed hplace hstarting haborted hfollows

end Progress

/-- Along every run beside others the last stage does what it does on its own. -/
theorem Beside.progress (h : Beside F programs ctx p w net) (hsound : w.files.Sound)
    (hlength : p.stages.length = k + 1) (hs : p.stages[k]? = some s) (hnot : ¬ s.Launches programs ctx w) :
    net.Progress F programs ctx s w k := by
  induction h with
  | ofPipeline => exact .ofPipeline hsound
  | step move hnet hstep hown hother ih =>
    cases move with
    | start inputSize outputSize => exact ih.start hnet.reachable.invariant hlength hs hnot hstep hown hother
    | stage i wish => exact ih.stage hlength hstep hown hother
    | relay i wish => exact ih.relay hstep
    | wait => exact ih.wait hstep

/-! ## What it comes to -/

/-- What a pipeline has come to, after its files are closed. -/
def result (net : Network) : Outcome × World :=
  (net.outcome, net.owned.foldl World.close net.world)

/-- A pipeline comes to what a stage on its own comes to, as far as the pieces of `F` go. -/
structure Agrees (F : Touch → Prop) (ctx : Context) (s : Stage) (piped : Outcome × World)
    (alone : (Outcome × Context) × World) : Prop where
  outcome : piped.1 = alone.1.1.inPipeline
  /-- The same files are there. -/
  stat : ∀ path followLast, (∀ t ∈ piped.2.files.trailOf FileSystem.root path { followLast }, F t) →
    piped.2.files.stat FileSystem.root path followLast = alone.2.files.stat FileSystem.root path followLast
  /-- They hold the same. -/
  fetch : ∀ path, (∀ t ∈ piped.2.files.trailOf FileSystem.root path { followLast := true }, F t) →
    piped.2.files.fetch FileSystem.root path = alone.2.files.fetch FileSystem.root path
  out : F .out → piped.2.out = alone.2.out
  err : F .err → piped.2.err = alone.2.err
  /-- A pipeline leaves the session where it is, and only a `cd` on its own moves it. -/
  context : alone.1.2 = ctx ∨ s.Moved ctx alone.1.1 alone.1.2

/-- When a pipeline is over and no other stage has come to a fault, its outcome is that of the last stage. -/
theorem outcome_of_over (h : Reachable programs ctx p w net) (hlength : p.stages.length = k + 1)
    (hover : net.isOver = true) (hothers : ∀ i fault, net.FaultOf i fault → i = k) :
    (∃ fault, net.aborted = some fault ∧ net.members.length = k ∧ net.outcome = .failed fault) ∨
    ∃ m e, net.members[k]? = some m ∧ m.task = .ended e ∧ net.outcome = e.outcome := by
  have hseen := h.seen
  have hinv := h.invariant
  cases haborted : net.aborted with
  | some fault =>
    refine .inl ⟨fault, rfl, hothers _ fault (.inl ⟨haborted, rfl⟩), ?_⟩
    simp only [outcome, haborted]
  | none =>
    refine .inr ?_
    cases hfault : net.fault with
    | some fault =>
      obtain ⟨m, owned, hm, htask⟩ := hseen.fault fault hfault
      have hplace := hothers _ fault (.inr ⟨m, owned, hm, htask⟩)
      rw [hplace] at hm
      refine ⟨m, _, hm, htask, ?_⟩
      simp only [outcome, haborted, hfault, StageEnd.outcome]
    | none =>
      obtain haborted' | hfault' | ⟨hwaiting, hstarting, hall⟩ := hseen.isOver hover
      · exact absurd haborted haborted'
      · exact absurd hfault hfault'
      have hdrop := hinv.waiting haborted
      rw [hwaiting, hstarting] at hdrop
      have hmembers : p.stages.length ≤ net.members.length := List.drop_eq_nil_iff.1 hdrop.symm
      have hle := hinv.members_le
      have hlast : net.statuses.length = k + 1 := by omega
      have hcode : net.statuses[k]? = some net.statuses[k] := List.getElem?_eq_getElem (by omega)
      obtain ⟨m, owned, hm, htask⟩ := hseen.statuses k _ hcode
      refine ⟨m, _, hm, htask, ?_⟩
      simp only [outcome, haborted, hfault, StageEnd.outcome, List.getLast?_eq_getElem?, hlast, Nat.add_sub_cancel,
        hcode, Option.getD_some]

/-- In the end, what the last stage came to is what the stage comes to on its own. -/
theorem Progress.of_over (h : net.Progress F programs ctx s w k) (hnet : Reachable programs ctx p w net)
    (hlength : p.stages.length = k + 1) (hover : net.isOver = true)
    (hothers : ∀ i fault, net.FaultOf i fault → i = k) :
    net.outcome = (settle ctx ((s.work programs ctx).run w).1.1).1.inPipeline ∧
      ∃ T, World.Alike F T ((s.work programs ctx).run w).2 net.world := by
  -- The pipeline is over because the last stage could not be started, or because it has ended.
  obtain ⟨fault, haborted, hplace, houtcome⟩ | ⟨m, e, hm, htask, houtcome⟩ :=
    outcome_of_over hnet hlength hover hothers
  · rw [houtcome]
    cases h with
    | waiting hplace' haborted' halike =>
      have hless := haborted' (by rw [haborted]; exact Option.some_ne_none _)
      omega
    | starting hplace' hstarting hfollows =>
      have hnone := (hnet.invariant.starting _ hstarting).1
      rw [haborted] at hnone
      cases hnone
    | working hm hfollows =>
      have hbound := (List.getElem?_eq_some_iff.1 hm).1
      omega
    | failed hplace' hstarting haborted' hfollows =>
      rw [haborted] at haborted'
      cases haborted'
      obtain ⟨T, hends, halike⟩ := hfollows.done
      exact ⟨hends.symm, T, halike⟩
  · rw [houtcome]
    have hbound := (List.getElem?_eq_some_iff.1 hm).1
    cases h with
    | waiting hplace haborted halike => omega
    | starting hplace hstarting hfollows => omega
    | failed hplace hstarting haborted hfollows => omega
    | working hm' hfollows =>
      rw [hm] at hm'
      cases hm'
      rw [htask] at hfollows
      obtain ⟨T, hends, halike⟩ := hfollows.done
      exact ⟨hends.symm, T, halike⟩

/-- A stage that launches no process comes to the same on its own and as the last stage of a pipeline, if the other
    stages leave alone what it touches and none of them comes to a fault. -/
theorem agrees_with_stage_alone (hsound : w.files.Sound) (hs : p.stages.getLast? = some s)
    (hnot : ¬ s.Launches programs ctx w) (hnet : Beside F programs ctx p w net) (hover : net.isOver = true)
    (hothers : ∀ i fault, net.FaultOf i fault → i + 1 = p.stages.length) :
    Agrees F ctx s net.result ((s.run programs ctx).run w) := by
  obtain ⟨k, hlength⟩ : ∃ k, p.stages.length = k + 1 := Nat.exists_eq_add_one.2 (Nat.lt_of_lt_of_le Nat.two_pos p.two_le)
  rw [List.getLast?_eq_getElem?, hlength, Nat.add_sub_cancel] at hs
  have hprogress := hnet.progress hsound hlength hs hnot
  obtain ⟨houtcome, T, halike⟩ := hprogress.of_over hnet.reachable hlength hover
    fun i fault hfault => by have := hothers i fault hfault; omega
  have hpiped := World.closeAll_view net.owned net.world
  have halone := World.closeAll_view ((s.work programs ctx).run w).1.2.owned ((s.work programs ctx).run w).2
  have hcontext := s.context_after_run programs ctx w
  rw [Stage.run_eq_work] at hcontext ⊢
  refine ⟨houtcome, ?_, ?_, ?_, ?_, hcontext⟩
  · intro path followLast hF
    simp only [result, hpiped.files, halone.files] at hF ⊢
    exact (FileSystem.stat_eq halike.files path T.root hF).symm
  · intro path hF
    simp only [result, hpiped.files, halone.files] at hF ⊢
    exact (FileSystem.fetch_eq halike.files path T.root hF).symm
  · intro hF
    simp only [result, hpiped.out, halone.out]
    exact (halike.out hF).symm
  · intro hF
    simp only [result, hpiped.err, halone.err]
    exact (halike.err hF).symm

/-! ## A sample -/

/-- Make some moves beside others one after the other, as long as the last stage touches only certain pieces
    and all other moves leave them as they are. -/
def followBeside (pieces : List Touch) (programs : Programs) (ctx : Context) (p : Pipeline) (net : Network)
    (moves : List Move) : Option Network :=
  moves.foldlM (fun net move => do
    let next ← net.step programs ctx move
    if (net.MovesLast p move → ∀ t ∈ net.touched move, t ∈ pieces) ∧
        (¬ net.MovesLast p move → ∀ t ∈ pieces, net.world.Same next.world t)
      then return next else none) net

theorem Beside.follow {pieces : List Touch} {moves : List Move} (h : Beside (· ∈ pieces) programs ctx p w net)
    (hmoves : net.followBeside pieces programs ctx p moves = some next) :
    Beside (· ∈ pieces) programs ctx p w next := by
  induction moves generalizing net with
  | nil =>
    cases hmoves
    exact h
  | cons move moves ih =>
    rw [followBeside, List.foldlM_cons] at hmoves
    obtain ⟨middle, hmove, hrest⟩ := Option.bind_eq_some_iff.1 hmoves
    obtain ⟨middle', hstep, hchecked⟩ := Option.bind_eq_some_iff.1 hmove
    split at hchecked
    · rename_i hbeside
      cases hchecked
      exact ih (.step move h hstep hbeside.1 hbeside.2) hrest
    · cases hchecked

/-- Whether no stage came to a fault. -/
def faultless (net : Network) : Bool :=
  net.aborted.isNone && net.members.all fun m =>
    match m.task with
    | .ended ⟨.error _, _⟩ => false
    | _ => true

theorem not_faultOf_of_faultless (h : net.faultless = true) (i : Nat) (fault : Fault) : ¬ net.FaultOf i fault := by
  rw [faultless, Bool.and_eq_true, List.all_eq_true] at h
  rintro (⟨haborted, -⟩ | ⟨m, owned, hm, htask⟩)
  · simp [haborted] at h
  · have hnone := h.2 m (List.mem_of_getElem? hm)
    rw [htask] at hnone
    cases hnone

end Network

namespace Sample

/-- A world with a device that has no room, and nothing else. -/
def deviceWorld : World := { files := ⟨#[.dir 0 [("full", 1)], .device .full]⟩ }

theorem isExecutableName_echo : IsExecutableName "echo" := by
  decide

/-- `echo hi > /out` -/
def echoOut : Stage := ⟨"echo", ["hi"], some { stdout := some "/out" }, isExecutableName_echo⟩

/-- `nosuch | echo hi > /out` -/
def besideMissing : Pipeline := ⟨[⟨"nosuch", [], none, by decide⟩, echoOut], by decide, by decide⟩

/-- `nosuch 2> /full | echo hi > /out` -/
def besideRefused : Pipeline :=
  ⟨[⟨"nosuch", [], some { stderr := some "/full" }, by decide⟩, echoOut], by decide, by decide⟩

/-- What `echoOut` touches when it opens its file under a number, and the console's output. -/
def pieces (h : Handle) : List Touch := [.node 0, .name 0 "out", .node 2, .file h, .out]

theorem echoOut_not_launches : ¬ echoOut.Launches (fun _ => none) context deviceWorld := by
  rintro ⟨path, job, hfind, -⟩
  cases hfind

end Sample

namespace Network

open Sample

theorem agrees_with_stage_alone_beside_missing_command :
    ∃ net, Beside (· ∈ pieces 0) (fun _ => none) context besideMissing deviceWorld net ∧ net.isOver = true ∧
      net.outcome = .status 0 ∧ net.result.2.files.fetch FileSystem.root "/out" = .ok (utf8Line "hi") := by
  have hran : ((ofPipeline besideMissing deviceWorld).followBeside (pieces 0) (fun _ => none) context besideMissing
      (List.replicate 5 (.start 1 1) ++ List.replicate 5 (.stage 1 1) ++ [.relay 0 1] ++ List.replicate 4 .wait)).any
        (fun net => net.isOver && net.faultless &&
          (net.result.2.files.trailOf FileSystem.root "/out" { followLast := true }).all (· ∈ pieces 0)) = true := by
    decide +kernel
  obtain ⟨net, hnet, hchecked⟩ := (Option.any_eq_true _ _).1 hran
  rw [Bool.and_eq_true, Bool.and_eq_true, List.all_eq_true] at hchecked
  obtain ⟨⟨hover, hfaultless⟩, htrail⟩ := hchecked
  have hbeside := Beside.ofPipeline.follow hnet
  have hagrees := agrees_with_stage_alone (by decide) rfl echoOut_not_launches hbeside hover
    fun i fault hfault => absurd hfault (not_faultOf_of_faultless hfaultless i fault)
  refine ⟨net, hbeside, hover, hagrees.outcome.trans ?_, (hagrees.fetch "/out" ?_).trans ?_⟩
  · decide +kernel
  · exact fun t ht => of_decide_eq_true (htrail t ht)
  · decide +kernel

/-- The fault of another stage is what a pipeline comes to, whatever its last stage would have come to. -/
theorem other_fault_hides_last_stage :
    ∃ net, Beside (· ∈ pieces 1) (fun _ => none) context besideRefused deviceWorld net ∧ net.isOver = true ∧
      net.outcome = .failed (.system .noSpace none) ∧
      ((echoOut.run (fun _ => none) context).run deviceWorld).1.1 = .status 0 := by
  have hran : ((ofPipeline besideRefused deviceWorld).followBeside (pieces 1) (fun _ => none) context besideRefused
      (List.replicate 6 (.start 1 1) ++ [.wait])).any
        (fun net => net.isOver && net.outcome = .failed (.system .noSpace none)) = true := by
    decide +kernel
  obtain ⟨net, hnet, hchecked⟩ := (Option.any_eq_true _ _).1 hran
  rw [Bool.and_eq_true, decide_eq_true_eq] at hchecked
  refine ⟨net, Beside.ofPipeline.follow hnet, hchecked.1, hchecked.2, ?_⟩
  decide +kernel

end Network

end Conch
