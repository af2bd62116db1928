-- SUMMARY: What the interpreter has asked of the world for one stage of a pipeline, and how far the stage is then.
import Conch.Proofs.Pipeline.Serving
import Conch.Proofs.Stage.Beginning

/-!
# The chronicle of a stage

The moves of a pipeline come in any order, and those for one stage lie among those of
others. `Network.Chronicle` picks out what was asked of the world for one stage, with what
it was answered. Other stages may have changed the world in the meantime, so a chronicle is
what the jobs of the stage can make, and not a run in one world.

`Network.Stood` tells how far the stage is. Its jobs have made what the chronicle says and
are left with the rest; `Job.LeavesOff` is the relation between the two. One move at a time
keeps it.
-/

namespace Conch

open StageM

variable {α : Type}

/-! ## Jobs in progress -/

/-- Something in the course of a trace was a matter of pipes. -/
def UsesPipe (trace : List Exchange) : Prop :=
  ∃ e ∈ trace, e.call.OnPipe

/-- What is left to do of a job that has asked certain things of the world so far, and used a pipe if `hasPiped`. -/
def Job.LeavesOff (whole : Job α) (trace : List Exchange) (hasPiped : Prop) (job : Job α) : Prop :=
  ∀ rest a, job.makes rest a → ∃ full, whole.makes full a ∧ offPipe full = trace ++ offPipe rest ∧
    (hasPiped ∨ UsesPipe rest → UsesPipe full)

namespace Job

variable {whole job : Job α} {trace : List Exchange} {hasPiped now : Prop} {c : Call} {resume : c.Reply → Job α}

theorem leavesOff_start (whole : Job α) : whole.LeavesOff [] False whole :=
  fun rest _ h => ⟨rest, h, rfl, fun hpipe => hpipe.resolve_left id⟩

theorem LeavesOff.mono (h : whole.LeavesOff trace hasPiped job) (himp : now → hasPiped) :
    whole.LeavesOff trace now job := by
  intro rest a hmakes
  obtain ⟨full, hfull, hoff, hpipe⟩ := h rest a hmakes
  exact ⟨full, hfull, hoff, fun hp => hpipe (hp.imp_left himp)⟩

/-- A call is answered by the world. -/
theorem LeavesOff.answered (h : whole.LeavesOff trace hasPiped (ask c resume)) (hc : ¬ c.OnPipe) (reply : c.Reply) :
    whole.LeavesOff (trace ++ [⟨c, reply⟩]) hasPiped (resume reply) := by
  intro rest a hmakes
  obtain ⟨full, hfull, hoff, hpipe⟩ := h _ a (makes_ask.2 ⟨reply, rest, rfl, hmakes⟩)
  have hkept : offPipe (⟨c, reply⟩ :: rest) = ⟨c, reply⟩ :: offPipe rest :=
    List.filter_cons_of_pos (by rwa [Bool.not_eq_true', Bool.eq_false_iff, Ne, Exchange.onPipe_iff])
  refine ⟨full, hfull, by rw [hoff, hkept, List.append_assoc, List.singleton_append], fun hp => hpipe (hp.imp_right ?_)⟩
  rintro ⟨e, he, hcall⟩
  exact ⟨e, List.mem_cons_of_mem _ he, hcall⟩

/-- A call on a pipe is answered. -/
theorem LeavesOff.answered_onPipe (h : whole.LeavesOff trace hasPiped (ask c resume)) (hc : c.OnPipe)
    (reply : c.Reply) : whole.LeavesOff trace now (resume reply) := by
  intro rest a hmakes
  obtain ⟨full, hfull, hoff, hpipe⟩ := h _ a (makes_ask.2 ⟨reply, rest, rfl, hmakes⟩)
  have hleft : offPipe (⟨c, reply⟩ :: rest) = offPipe rest :=
    List.filter_cons_of_neg (by rw [Exchange.onPipe_iff.2 hc]; decide)
  exact ⟨full, hfull, by rw [hoff, hleft], fun _ => hpipe (.inr ⟨_, List.mem_cons_self, hc⟩)⟩

/-- A part of what is written to a pipe was taken. -/
theorem LeavesOff.writing {data left : Bytes} {resume : Except Errno Unit → Job α}
    (h : whole.LeavesOff trace hasPiped (ask (.write .pipe data) resume)) :
    whole.LeavesOff trace now (ask (.write .pipe left) resume) := by
  intro rest a hmakes
  obtain ⟨reply, rest, rfl, hrest⟩ := makes_ask.1 hmakes
  obtain ⟨full, hfull, hoff, hpipe⟩ := h _ a (makes_ask.2 ⟨reply, rest, rfl, hrest⟩)
  exact ⟨full, hfull, hoff, fun _ => hpipe (.inr ⟨_, List.mem_cons_self, trivial⟩)⟩

/-- At the end the job has made what it has asked. -/
theorem LeavesOff.done {a : α} (h : whole.LeavesOff trace hasPiped (.done a)) :
    ∃ full, whole.makes full a ∧ offPipe full = trace ∧ (hasPiped → UsesPipe full) := by
  obtain ⟨full, hfull, hoff, hpipe⟩ := h [] a (makes_done.2 ⟨rfl, rfl⟩)
  rw [offPipe_nil, List.append_nil] at hoff
  exact ⟨full, hfull, hoff, fun hp => hpipe (.inl hp)⟩

/-- A job can be gone on with in any world. -/
theorem LeavesOff.complete (h : whole.LeavesOff trace hasPiped job) (w : World) :
    ∃ full a, whole.makes full a ∧ trace <+: offPipe full ∧ (hasPiped → UsesPipe full) := by
  obtain ⟨full, hfull, hoff, hpipe⟩ := h _ _ (job.makes_traceIn w)
  exact ⟨full, _, hfull, hoff ▸ List.prefix_append _ _, fun hp => hpipe (.inl hp)⟩

end Job

namespace Network

variable {programs : Programs} {ctx : Context} {p : Pipeline} {w : World} {net next : Network} {i : Nat} {s : Stage}
  {trace : List Exchange}

/-! ## Chronicles -/

/-- What the interpreter has asked of the world for the stage at a place of a pipeline on the way to a network: to
    start the stage, and to run it if it is a built-in command. -/
inductive Chronicle (programs : Programs) (ctx : Context) (p : Pipeline) (w : World) (i : Nat) :
    List Exchange → Network → Prop
  | ofPipeline : Chronicle programs ctx p w i [] (.ofPipeline p w)
  | own {trace : List Exchange} {net next : Network} {move : Move} {c : Call}
      (hnet : Chronicle programs ctx p w i trace net) (hserves : net.ServesStage i move)
      (hcall : net.callOf move = some c) (hc : ¬ c.OnPipe) (hstep : net.step programs ctx move = some next) :
    Chronicle programs ctx p w i (trace ++ [⟨c, (net.world.perform c).1⟩]) next
  | other {trace : List Exchange} {net next : Network} {move : Move} (hnet : Chronicle programs ctx p w i trace net)
      (hother : net.ServesStage i move → ∀ c, net.callOf move = some c → c.OnPipe)
      (hstep : net.step programs ctx move = some next) : Chronicle programs ctx p w i trace next

theorem Chronicle.reachable (h : Chronicle programs ctx p w i trace net) : Reachable programs ctx p w net := by
  induction h with
  | ofPipeline => exact .ofPipeline
  | own hnet hserves hcall hc hstep ih => exact .step _ ih hstep
  | other hnet hother hstep ih => exact .step _ ih hstep

/-- Every stage has a chronicle on the way to every network. -/
theorem Reachable.exists_chronicle (h : Reachable programs ctx p w net) (i : Nat) :
    ∃ trace, Chronicle programs ctx p w i trace net := by
  induction h with
  | ofPipeline => exact ⟨[], .ofPipeline⟩
  | @step net next move hnet hstep ih =>
    obtain ⟨trace, ih⟩ := ih
    by_cases hown : net.ServesStage i move ∧ ∃ c, net.callOf move = some c ∧ ¬ c.OnPipe
    · obtain ⟨hserves, c, hcall, hc⟩ := hown
      exact ⟨_, .own ih hserves hcall hc hstep⟩
    · refine ⟨trace, .other ih (fun hserves c hcall => ?_) hstep⟩
      by_contra hc
      exact hown ⟨hserves, c, hcall, hc⟩

/-- How one move goes on with a chronicle. -/
inductive Noted (net : Network) (i : Nat) (move : Move) (trace : List Exchange) : List Exchange → Prop
  | own {c : Call} (hserves : net.ServesStage i move) (hcall : net.callOf move = some c) (hc : ¬ c.OnPipe) :
    Noted net i move trace (trace ++ [⟨c, (net.world.perform c).1⟩])
  | other (hother : net.ServesStage i move → ∀ c, net.callOf move = some c → c.OnPipe) : Noted net i move trace trace

theorem Noted.of_not_serves {move : Move} {after : List Exchange} (h : net.Noted i move trace after)
    (hnot : ¬ net.ServesStage i move) : after = trace := by
  cases h with
  | own hserves => exact absurd hserves hnot
  | other => rfl

theorem Noted.of_no_call {move : Move} {after : List Exchange} (h : net.Noted i move trace after)
    (hnone : net.callOf move = none) : after = trace := by
  cases h with
  | own hserves hcall => cases hnone.symm.trans hcall
  | other => rfl

/-- A job goes on with the call that is noted. -/
theorem Noted.leavesOff {move : Move} {after : List Exchange} {whole : Job α} {hasPiped : Prop} {c : Call}
    {resume : c.Reply → Job α} (h : net.Noted i move trace after) (hserves : net.ServesStage i move)
    (hcall : net.callOf move = some c) (hleft : whole.LeavesOff trace hasPiped (.ask c resume)) {reply : c.Reply}
    (hreply : ¬ c.OnPipe → reply = (net.world.perform c).1) {now : Prop} (hnow : ¬ c.OnPipe → now → hasPiped) :
    whole.LeavesOff after now (resume reply) := by
  cases h with
  | own hserves' hcall' hc =>
    cases hcall.symm.trans hcall'
    rw [hreply hc]
    exact (hleft.answered hc _).mono (hnow hc)
  | other hother => exact hleft.answered_onPipe (hother hserves c hcall) reply

/-! ## How far a stage is -/

/-- How far a stage is in a network, by what was asked of the world for it. -/
inductive Stood (programs : Programs) (ctx : Context) (s : Stage) (i : Nat) (trace : List Exchange) (net : Network) :
    Prop
  /-- It is not its turn yet. -/
  | ahead (hplace : net.members.length + net.starting.toList.length ≤ i)
      (haborted : net.aborted ≠ none → net.members.length < i) (htrace : trace = [])
  | starting {job : Job Started} {isFirst isLast : Bool} {inputSize outputSize : Nat} (hplace : net.members.length = i)
      (hstarting : net.starting = some job)
      (hleft : (startStage programs ctx isFirst isLast inputSize outputSize s).LeavesOff trace False job)
  /-- It could not be started. -/
  | failed {full : List Exchange} {fault : Fault} {owned : List Handle} {isFirst isLast : Bool}
      {inputSize outputSize : Nat} (hplace : net.members.length = i) (hstarting : net.starting = none)
      (haborted : net.aborted = some fault)
      (hmade : (startStage programs ctx isFirst isLast inputSize outputSize s).makes full (.error (fault, owned)))
      (htrace : offPipe full = trace)
  /-- It is a built-in command, which runs or has ended. -/
  | builtin {m : Member} {b : Builtin} {isLast : Bool} (hm : net.members[i]? = some m) (hrole : m.role = .builtin)
      (hb : Builtin.ofName? s.executable = some b)
      (hleft : (builtinJob b s ctx isLast).LeavesOff trace (m.written ≠ []) m.task.rest)
  /-- It was started as something else. What is no process has ended. -/
  | started {m m₀ : Member} {full : List Exchange} {isFirst isLast : Bool} {inputSize outputSize : Nat}
      (hm : net.members[i]? = some m) (hrole : m.role = m₀.role)
      (hmade : (startStage programs ctx isFirst isLast inputSize outputSize s).makes full (.ok m₀))
      (htrace : offPipe full = trace) (hnot : Builtin.ofName? s.executable = none)
      (habsent : m₀.role = .absent → m.task = m₀.task)

/-- What starting a stage comes to: a built-in command is a job still to be run, and nothing else is a built-in
    command. -/
theorem startStage_makes {isFirst isLast : Bool} {inputSize outputSize : Nat} {started : Started}
    (h : (startStage programs ctx isFirst isLast inputSize outputSize s).makes trace started) :
    (∀ b, Builtin.ofName? s.executable = some b → trace = [] ∧ ∃ m, started = .ok m ∧ m.role = .builtin ∧
      m.task = .running (builtinJob b s ctx isLast) ∧ m.written = []) ∧
    (Builtin.ofName? s.executable = none → ∀ m, started = .ok m → m.role ≠ .builtin) := by
  unfold startStage at h
  obtain ⟨resolution, look, rest, rfl, hlook, hrest⟩ := Job.makes_bind.1 h
  have hfound := (Lookup.find_makes hlook).2
  cases resolution with
  | builtin b =>
    have hb := (hfound b).2 rfl
    obtain ⟨rfl, rfl⟩ := Job.makes_done.1 hrest
    refine ⟨fun b' hb' => ?_, fun hnot => absurd (hnot.symm.trans hb) nofun⟩
    cases hb.symm.trans hb'
    refine ⟨by rw [List.append_nil]; exact Lookup.makes_of_builtin hb hlook, _, rfl, rfl, rfl, ?_⟩
    cases isLast <;> rfl
  | notFound =>
    refine ⟨fun b hb => absurd ((hfound b).1 hb) nofun, fun _ => ?_⟩
    obtain ⟨⟨result, σ⟩, told, last, rfl, htold, hlast⟩ := Job.makes_bind.1 hrest
    rintro m rfl
    cases result with
    | ok done =>
      cases (Job.makes_done.1 hlast).2
      exact nofun
    | error fault => cases (Job.makes_done.1 hlast).2
  | external path =>
    refine ⟨fun b hb => absurd ((hfound b).1 hb) nofun, fun _ => ?_⟩
    obtain ⟨⟨result, σ⟩, told, last, rfl, htold, hlast⟩ := Job.makes_bind.1 hrest
    rintro m rfl
    cases result with
    | error fault => cases (Job.makes_done.1 hlast).2
    | ok launched =>
      cases launched with
      | error status =>
        cases (Job.makes_done.1 hlast).2
        exact nofun
      | ok job =>
        cases (Job.makes_done.1 hlast).2
        exact nofun

/-! ## One move -/

/-- A member at the same work, as far as it shows at its output. -/
structure SameWork (m m' : Member) : Prop where
  task : m'.task = m.task
  role : m'.role = m.role
  written : m'.written = m.written

theorem SameWork.rfl {m : Member} : SameWork m m := ⟨Eq.refl _, Eq.refl _, Eq.refl _⟩

/-- Only writing to a pipe adds to what a stage has written there. -/
theorem written_of_stepped {m m' : Member} (h : m.Stepped m') :
    m'.written = m.written ∨ ∃ data resume, m.task = .running (.ask (.write .pipe data) resume) := by
  cases h with
  | finished htask =>
    left
    unfold Member.written Member.finish
    cases m.output <;> rfl
  | write htask houtput hwrites => exact .inr ⟨_, _, htask⟩
  | _ => exact .inl rfl

/-- A relay leaves the stages at their work. It reads what they have written and adds nothing to it. -/
theorem relay_sameWork {j wish : Nat} (hnet : net.Invariant programs p)
    (h : net.step programs ctx (.relay j wish) = some next) {m : Member} (hm : net.members[i]? = some m) :
    ∃ m', next.members[i]? = some m' ∧ SameWork m m' := by
  obtain ⟨c, before, after, r, hc, hbefore, hafter, hmove, rfl⟩ := relay_cases h
  have hread := (Carrier.step_advanced (hnet.link hbefore hc hafter) hmove).source_moved
  have hwritten : ({ before with output := r.2.1 } : Member).written = before.written := by
    unfold Member.written
    dsimp only
    generalize before.output = source at hread
    generalize r.2.1 = source' at hread
    cases hread with
    | some hmoved => exact hmoved.allPut
    | none => rfl
  have hlength := (List.getElem?_eq_some_iff.1 hafter).1
  by_cases hi : j + 1 = i
  · subst hi
    cases hafter.symm.trans hm
    exact ⟨_, List.getElem?_set_self (by rwa [List.length_set]), rfl, rfl, rfl⟩
  · dsimp only
    rw [List.getElem?_set_ne hi]
    by_cases hj : j = i
    · subst hj
      cases hbefore.symm.trans hm
      exact ⟨_, List.getElem?_set_self (by omega), rfl, rfl, hwritten⟩
    · exact ⟨m, (List.getElem?_set_ne hj).trans hm, .rfl⟩

namespace Stood

variable {after : List Exchange}

/-- What happens elsewhere leaves a stage where it is. -/
theorem of_same (h : net.Stood programs ctx s i trace)
    (hsame : net.members.length ≤ i → next.starting = net.starting ∧ next.aborted = net.aborted ∧
      next.members.length = net.members.length)
    (hkept : ∀ m, net.members[i]? = some m → ∃ m', next.members[i]? = some m' ∧ SameWork m m') :
    next.Stood programs ctx s i trace := by
  cases h with
  | ahead hplace haborted htrace =>
    obtain ⟨hstarting, haborted', hlength⟩ := hsame (by omega)
    exact .ahead (by rwa [hlength, hstarting]) (by rwa [haborted', hlength]) htrace
  | starting hplace hstarting hleft =>
    obtain ⟨hstarting', -, hlength⟩ := hsame hplace.le
    exact .starting (hlength.trans hplace) (hstarting'.trans hstarting) hleft
  | failed hplace hstarting haborted hmade htrace =>
    obtain ⟨hstarting', haborted', hlength⟩ := hsame hplace.le
    exact .failed (hlength.trans hplace) (hstarting'.trans hstarting) (haborted'.trans haborted) hmade htrace
  | builtin hm hrole hb hleft =>
    obtain ⟨m', hm', hwork⟩ := hkept _ hm
    rw [← hwork.task, ← hwork.written] at hleft
    exact .builtin hm' (hwork.role.trans hrole) hb hleft
  | started hm hrole hmade htrace hnot habsent =>
    obtain ⟨m', hm', hwork⟩ := hkept _ hm
    exact .started hm' (hwork.role.trans hrole) hmade htrace hnot fun hr => hwork.task.trans (habsent hr)

section Start

variable {inputSize outputSize : Nat}

/-- A stage that was started stays as it is while others are started. -/
theorem start_of_member (h : net.Stood programs ctx s i trace) (hi : i < net.members.length)
    (hnoted : net.Noted i (.start inputSize outputSize) trace after) (hmove : net.StartMove programs ctx next) :
    next.Stood programs ctx s i after := by
  have hnot : ¬ net.ServesStage i (.start inputSize outputSize) := by
    rintro ⟨⟩
    omega
  rw [hnoted.of_not_serves hnot]
  refine h.of_same (fun hle => absurd hle (by omega)) fun m hm => ⟨m, ?_, .rfl⟩
  cases hmove with
  | joined hstarting => exact (List.getElem?_append_left hi).trans hm
  | _ => exact hm

/-- Another stage is started, or it is the turn of this one. -/
theorem start_of_ahead (hnet : net.Invariant programs p) (hs : p.stages[i]? = some s)
    (hplace : net.members.length + net.starting.toList.length ≤ i)
    (haborted : net.aborted ≠ none → net.members.length < i)
    (hnoted : net.Noted i (.start inputSize outputSize) [] after) (hmove : net.StartMove programs ctx next) :
    next.Stood programs ctx s i after := by
  cases hmove with
  | called hstarting =>
    rw [hstarting] at hplace
    have hnot : ¬ net.ServesStage i (.start inputSize outputSize) := by
      rintro ⟨⟩
      simp at hplace
      omega
    rw [hnoted.of_not_serves hnot]
    exact .ahead hplace haborted rfl
  | aborted hstarting =>
    rw [hstarting] at hplace
    rw [hnoted.of_no_call (by simp [callOf, hstarting, Job.next?])]
    simp only [Option.toList_some, List.length_singleton] at hplace
    exact .ahead (by simp; omega) (fun _ => hplace) rfl
  | joined hstarting =>
    rw [hstarting] at hplace
    rw [hnoted.of_no_call (by simp [callOf, hstarting, Job.next?])]
    have hnone := (hnet.starting _ hstarting).1
    exact .ahead (by rw [join_length]; exact hplace) (fun hsome => absurd hnone hsome) rfl
  | @begun s' waiting inputSize' outputSize' hstarting hnone hwaiting =>
    rw [hnoted.of_no_call (by simp [callOf, hstarting])]
    rw [hstarting] at hplace
    rcases Nat.lt_or_eq_of_le hplace with hlt | heq
    · exact .ahead hlt (fun hsome => absurd hnone hsome) rfl
    · have hplace : net.members.length = i := heq
      have hnext : p.stages[i]? = some s' := by
        rw [← List.head?_drop, ← hplace]
        have hdrop := hnet.waiting hnone
        rw [hstarting, hwaiting] at hdrop
        exact congrArg List.head? hdrop.symm
      cases hs.symm.trans hnext
      exact .starting hplace rfl (Job.leavesOff_start _)

/-- A stage that has just been started. -/
theorem of_started {m : Member} {full : List Exchange} {isFirst isLast : Bool} {inputSize' outputSize' : Nat}
    (hm : net.members[i]? = some m)
    (hmade : (startStage programs ctx isFirst isLast inputSize' outputSize' s).makes full (.ok m)) :
    net.Stood programs ctx s i (offPipe full) := by
  cases hname : Builtin.ofName? s.executable with
  | none => exact .started hm rfl hmade rfl hname fun _ => rfl
  | some b =>
    obtain ⟨rfl, m', hsame, hrole, htask, hwritten⟩ := (startStage_makes hmade).1 b hname
    cases hsame
    have hrest : m.task.rest = builtinJob b s ctx isLast := by
      rw [htask]
      rfl
    have hleft : (builtinJob b s ctx isLast).LeavesOff [] (m.written ≠ []) m.task.rest := by
      rw [hrest]
      exact (Job.leavesOff_start _).mono fun hsome => absurd hwritten hsome
    exact .builtin hm hrole hname hleft

/-- A stage that is being started goes on with that, and joins the others or fails. -/
theorem start_of_starting {job : Job Started} {isFirst isLast : Bool} {inputSize' outputSize' : Nat}
    (hplace : net.members.length = i) (hstarting : net.starting = some job)
    (hleft : (startStage programs ctx isFirst isLast inputSize' outputSize' s).LeavesOff trace False job)
    (hnoted : net.Noted i (.start inputSize outputSize) trace after) (hmove : net.StartMove programs ctx next) :
    next.Stood programs ctx s i after := by
  cases hmove with
  | @called c resume hstarting' =>
    cases hstarting.symm.trans hstarting'
    have hcall : net.callOf (.start inputSize outputSize) = some c := by
      rw [callOf, hstarting]
      rfl
    have hserves : net.ServesStage i (.start inputSize outputSize) := .start _ _ hplace.symm
    exact .starting hplace rfl (hnoted.leavesOff hserves hcall hleft (fun _ => rfl) fun _ => id)
  | aborted hstarting' =>
    cases hstarting.symm.trans hstarting'
    rw [hnoted.of_no_call (by simp [callOf, hstarting, Job.next?])]
    obtain ⟨full, hmade, htrace, -⟩ := hleft.done
    exact .failed hplace rfl rfl hmade htrace
  | joined hstarting' =>
    cases hstarting.symm.trans hstarting'
    rw [hnoted.of_no_call (by simp [callOf, hstarting, Job.next?])]
    obtain ⟨full, hmade, rfl, -⟩ := hleft.done
    exact .of_started (hplace ▸ List.getElem?_concat_length) hmade
  | begun _ _ hstarting' => cases hstarting.symm.trans hstarting'

theorem start (h : net.Stood programs ctx s i trace) (hnet : net.Invariant programs p) (hs : p.stages[i]? = some s)
    (hnoted : net.Noted i (.start inputSize outputSize) trace after)
    (hstep : net.start programs ctx inputSize outputSize = some next) : next.Stood programs ctx s i after := by
  have hmove := startMove_of_start hstep
  cases h with
  | ahead hplace haborted htrace =>
    subst htrace
    exact start_of_ahead hnet hs hplace haborted hnoted hmove
  | starting hplace hstarting hleft => exact start_of_starting hplace hstarting hleft hnoted hmove
  | failed hplace hstarting haborted hmade htrace =>
    cases hmove with
    | called hstarting' => cases hstarting.symm.trans hstarting'
    | aborted hstarting' => cases hstarting.symm.trans hstarting'
    | joined hstarting' => cases hstarting.symm.trans hstarting'
    | begun _ _ _ hnone => cases hnone.symm.trans haborted
  | builtin hm hrole hb hleft =>
    exact (builtin hm hrole hb hleft).start_of_member (List.getElem?_eq_some_iff.1 hm).1 hnoted hmove
  | started hm hrole hmade htrace hnot habsent =>
    exact (started hm hrole hmade htrace hnot habsent).start_of_member (List.getElem?_eq_some_iff.1 hm).1 hnoted hmove

end Start

section Stage

variable {j wish : Nat} {m m' : Member} {world : World}

/-- A built-in command makes a move: it is left with less to do, or with less to write to its pipe. -/
theorem leavesOff_of_step {job : Job StageEnd} (hm : net.members[i]? = some m) (hbuiltin : m.role = .builtin)
    (hleft : job.LeavesOff trace (m.written ≠ []) m.task.rest) (hnoted : net.Noted i (.stage i wish) trace after)
    (hmove : m.step wish net.world = some (m', world)) : job.LeavesOff after (m'.written ≠ []) m'.task.rest := by
  have hserves : net.ServesStage i (.stage i wish) := .builtin wish hm hbuiltin
  have hnext : net.callOf (.stage i wish) = m.task.rest.next? := by rw [callOf, hm]; rfl
  have hwritten := written_of_stepped (Member.stepped_of_step hmove)
  cases (Member.proceeded_of_step hmove : m.Proceeded True net.world m' world) with
  | @ended e htask htask' hw =>
    rw [htask] at hleft hnext hwritten
    rw [htask', hnoted.of_no_call hnext]
    refine hleft.mono fun hsome => ?_
    rcases hwritten with hsame | ⟨data, resume, hwrites⟩
    · rwa [← hsame]
    · cases hwrites
  | @answered c resume reply htask htask' hanswers =>
    rw [htask] at hleft hnext hwritten
    rw [htask']
    refine hnoted.leavesOff hserves hnext hleft (fun hc => congrArg Prod.fst (hanswers.performed hc)) fun hc hsome => ?_
    rcases hwritten with hsame | ⟨data, resume', hwrites⟩
    · rwa [← hsame]
    · cases hwrites
      exact absurd trivial hc
  | @writing data left resume htask htask' hw =>
    rw [htask] at hleft hnext
    rw [htask']
    cases hnoted with
    | own hserves hcall hc =>
      cases hnext.symm.trans hcall
      exact absurd trivial hc
    | other => exact hleft.writing

/-- What is absent has ended, and makes no move. -/
theorem not_absent_of_step (hm : m.Sound) (hmove : m.step wish net.world = some (m', world)) : m.role ≠ .absent := by
  intro habsent
  have hended := hm.absent_ended habsent
  unfold Member.isEnded at hended
  split at hended
  · rename_i e htask
    simp [Member.step, htask] at hmove
  · cases hended

theorem stage (h : net.Stood programs ctx s i trace) (hnet : net.Invariant programs p)
    (hnoted : net.Noted i (.stage j wish) trace after)
    (hstep : net.step programs ctx (.stage j wish) = some next) : next.Stood programs ctx s i after := by
  obtain ⟨m, m', world, hm, hmove, rfl⟩ := stage_cases hstep
  have hsound := (hnet.members j m hm).1
  have hrole := ((Member.stepped_of_step hmove).moved hsound).role
  have hlength : (net.members.set j m').length = net.members.length := List.length_set
  -- Only a built-in command at this place is served by such a move.
  have hother : ¬ (j = i ∧ m.role = .builtin) → after = trace := by
    intro hnot
    refine hnoted.of_not_serves ?_
    rintro ⟨⟩
    rename_i m₁ hm₁ hrole₁
    cases hm.symm.trans hm₁
    exact hnot ⟨rfl, hrole₁⟩
  by_cases hj : j = i
  · subst hj
    have hbound := (List.getElem?_eq_some_iff.1 hm).1
    have hm' : (net.members.set j m')[j]? = some m' := List.getElem?_set_self hbound
    cases h with
    | ahead hplace => omega
    | starting hplace => omega
    | failed hplace => omega
    | builtin hm₁ hbuiltin hb hleft =>
      cases hm.symm.trans hm₁
      exact .builtin hm' (hrole.trans hbuiltin) hb (leavesOff_of_step hm hbuiltin hleft hnoted hmove)
    | @started m₁ m₀ full _ _ _ _ hm₁ hsame hmade htrace hnot habsent =>
      cases hm.symm.trans hm₁
      have hnotBuiltin : m.role ≠ .builtin := hsame ▸ (startStage_makes hmade).2 hnot m₀ rfl
      rw [hother fun hbuiltin => hnotBuiltin hbuiltin.2]
      exact .started hm' (hrole.trans hsame) hmade htrace hnot fun hrole₀ =>
        absurd (hsame.trans hrole₀) (not_absent_of_step hsound hmove)
  · rw [hother fun hsame => hj hsame.1]
    exact h.of_same (fun _ => ⟨rfl, rfl, hlength⟩) fun n hn => ⟨n, (List.getElem?_set_ne hj).trans hn, .rfl⟩

end Stage

/-- One move keeps account of how far a stage is. -/
theorem step {move : Move} (h : net.Stood programs ctx s i trace) (hnet : net.Invariant programs p)
    (hs : p.stages[i]? = some s) (hnoted : net.Noted i move trace after)
    (hstep : net.step programs ctx move = some next) : next.Stood programs ctx s i after := by
  cases move with
  | start inputSize outputSize => exact h.start hnet hs hnoted hstep
  | stage j wish => exact h.stage hnet hnoted hstep
  | relay j wish =>
    rw [hnoted.of_no_call rfl]
    have hkept : ∀ m, net.members[i]? = some m → ∃ m', next.members[i]? = some m' ∧ SameWork m m' := fun m hm =>
      relay_sameWork hnet hstep hm
    obtain ⟨c, before, after, r, -, -, -, -, rfl⟩ := relay_cases hstep
    exact h.of_same (fun _ => ⟨rfl, rfl, by simp⟩) hkept
  | wait =>
    rw [hnoted.of_no_call rfl]
    obtain ⟨statuses, relaysSeen, fault, isOver, rfl⟩ := wait_cases hstep
    exact h.of_same (fun _ => ⟨rfl, rfl, rfl⟩) fun m hm => ⟨m, hm, .rfl⟩

end Stood

/-- How far a stage is can be told from its chronicle in every network. -/
theorem Chronicle.stood (h : Chronicle programs ctx p w i trace net) (hs : p.stages[i]? = some s) :
    net.Stood programs ctx s i trace := by
  induction h with
  | ofPipeline => exact .ahead (Nat.zero_le _) (fun haborted => absurd rfl haborted) rfl
  | own hnet hserves hcall hc hstep ih => exact ih.step hnet.reachable.invariant hs (.own hserves hcall hc) hstep
  | other hnet hother hstep ih => exact ih.step hnet.reachable.invariant hs (.other hother) hstep

end Network

end Conch
