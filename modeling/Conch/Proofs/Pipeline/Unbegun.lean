-- SUMMARY: A stage that cannot begin leaves nothing behind but its diagnostic, on its own and in a pipeline.
import Conch.Proofs.Pipeline.Chronicle
import Conch.Proofs.Pipeline.Wiring

/-!
# Stages that leave only a diagnostic

A stage whose command is not found, or whose `<` file cannot be opened, has the status of
that and one line of diagnostics to its name. No process is started, a built-in command
does nothing, and no file is opened to be written but the one for diagnostics.

In a pipeline other stages are at work in the meantime. There the chronicle of the stage
tells that it cannot begin, and what is said of it holds in every network on the way.
-/

namespace Conch

open StageM

variable {programs : Programs} {ctx : Context} {s : Stage} {code : Nat} {line : String} {trace : List Exchange}

/-! ## On its own -/

theorem Stage.Tells.append {sink : Sink} {before : List (Sink × Bytes)} {rest : List Exchange}
    (h : s.Tells ctx trace sink before) (hrest : everOpened rest = []) : s.Tells ctx (trace ++ rest) sink before :=
  h.insert everOpened_nil hrest

/-- Files are closed without a word. -/
theorem Stage.OnlyTells.closing {result : Except Fault Nat} (h : s.OnlyTells ctx code line trace result)
    (handles : List Handle) : s.OnlyTells ctx code line (trace ++ handles.map fun h => ⟨.close h, ()⟩) result := by
  obtain ⟨htaken, hgiven, hopened⟩ := closes_silent handles
  obtain ⟨sink, before, htells, hlines⟩ := h.told
  refine ⟨List.forall_mem_append.2 ⟨h.preparing, ?_⟩, ⟨sink, before, htells.append hopened, ?_⟩,
    fun hall => h.status (unrefused_append.1 hall).1⟩
  · intro e he
    obtain ⟨handle, -, rfl⟩ := List.mem_map.1 he
    exact .close handle
  · cases hlines with
    | whole hall hgiven' =>
      exact .whole (unrefused_append.2 ⟨hall, htaken⟩) (by rw [given_append, hgiven, List.append_nil, hgiven'])
    | refused hrefused hgiven' =>
      exact .refused (fun hall => hrefused (unrefused_append.1 hall).1)
        (by rwa [given_append, hgiven, List.append_nil])

/-! ## In a pipeline -/

namespace Network

variable {p : Pipeline} {w : World} {net : Network} {i : Nat}

/-- What there is of a stage of a pipeline that cannot begin. -/
structure Unbegun (ctx : Context) (s : Stage) (i : Nat) (code : Nat) (line : String) (trace : List Exchange)
    (net : Network) : Prop where
  preparing : ∀ e ∈ trace, s.Preparing ctx e.call
  noProcess : ∀ m, net.members[i]? = some m → m.role ≠ .process
  /-- Nothing comes to the pipe at its output. -/
  silent : ∀ m, net.members[i]? = some m → m.written = []
  /-- It ends when its diagnostic was told, or with the fault that the diagnostic has met. -/
  ended : ∀ m e, net.members[i]? = some m → m.task = .ended e → s.OnlyTells ctx code line trace e.result
  aborted : ∀ fault, net.aborted = some fault → net.members.length = i → s.OnlyTells ctx code line trace (.error fault)
  noted : ∀ status, net.statuses[i]? = some status → status = code

/-- Nothing on the way to a diagnostic is a matter of pipes. -/
theorem course_preparing {toPipe : Bool} {r : Except Fault Unit} (h : s.Course ctx toPipe line trace r) :
    (∀ e ∈ trace, s.Preparing ctx e.call) ∧ offPipe trace = trace ∧ ¬ UsesPipe trace := by
  have hpreparing := (h.onlyTells 0).preparing
  exact ⟨hpreparing, offPipe_of_preparing hpreparing, fun ⟨e, he, hpipe⟩ => (hpreparing e he).not_onPipe hpipe⟩

/-- A status that was noted is that of a stage that has ended. -/
theorem code_of_noted {status : Nat} (hnet : Reachable programs ctx p w net)
    (hended : ∀ m e, net.members[i]? = some m → m.task = .ended e → s.OnlyTells ctx code line trace e.result)
    (hstatus : net.statuses[i]? = some status) : status = code := by
  obtain ⟨m, owned, hm, htask⟩ := hnet.seen.statuses i status hstatus
  have htells := hended m _ hm htask
  obtain ⟨sink, before, -, hlines⟩ := htells.told
  cases hlines with
  | whole htaken => cases htells.status htaken; rfl

/-- Starting a stage that cannot begin prepares for it at most. -/
theorem startStage_preparing {isFirst isLast : Bool} {inputSize outputSize : Nat} {started : Started}
    (hcannot : s.CannotBegin ctx (offPipe trace) code line)
    (h : (startStage programs ctx isFirst isLast inputSize outputSize s).makes trace started) :
    (∀ e ∈ trace, s.Preparing ctx e.call) ∧ offPipe trace = trace := by
  cases hname : Builtin.ofName? s.executable with
  | some b =>
    obtain ⟨rfl, -⟩ := (startStage_makes h).1 b hname
    exact ⟨List.forall_mem_nil _, rfl⟩
  | none =>
    obtain ⟨r, owned, hcourse, -⟩ := startStage_course hcannot hname h
    exact ⟨(course_preparing hcourse).1, (course_preparing hcourse).2.1⟩

/-- A stage that cannot begin is not there before it was started. -/
theorem unbegun_of_ahead (hnet : Reachable programs ctx p w net) (hplace : net.members.length ≤ i)
    (hpreparing : ∀ e ∈ trace, s.Preparing ctx e.call)
    (haborted : ∀ fault, net.aborted = some fault → net.members.length = i →
      s.OnlyTells ctx code line trace (.error fault)) : net.Unbegun ctx s i code line trace := by
  have hnone : ∀ m, net.members[i]? = some m → False := by
    intro m hm
    have hbound := (List.getElem?_eq_some_iff.1 hm).1
    omega
  have hended : ∀ m e, net.members[i]? = some m → m.task = .ended e → s.OnlyTells ctx code line trace e.result :=
    fun m e hm => (hnone m hm).elim
  exact ⟨hpreparing, fun m hm => (hnone m hm).elim, fun m hm => (hnone m hm).elim, hended, haborted,
    fun status => code_of_noted hnet hended⟩

/-- A stage that has been started is no longer in the way of those that follow. -/
theorem unbegun_of_member {m : Member} (hnet : Reachable programs ctx p w net) (hm : net.members[i]? = some m)
    (hpreparing : ∀ e ∈ trace, s.Preparing ctx e.call) (hrole : m.role ≠ .process) (hsilent : m.written = [])
    (hended : ∀ e, m.task = .ended e → s.OnlyTells ctx code line trace e.result) :
    net.Unbegun ctx s i code line trace := by
  have hsame : ∀ m', net.members[i]? = some m' → m' = m := fun m' hm' => Option.some.inj (hm'.symm.trans hm)
  have hended' : ∀ m e, net.members[i]? = some m → m.task = .ended e → s.OnlyTells ctx code line trace e.result :=
    fun m' e hm' htask => hended e (hsame m' hm' ▸ htask)
  have hbound := (List.getElem?_eq_some_iff.1 hm).1
  exact ⟨hpreparing, fun m' hm' => hsame m' hm' ▸ hrole, fun m' hm' => hsame m' hm' ▸ hsilent, hended',
    fun fault _ hplace => absurd hplace (by omega), fun status => code_of_noted hnet hended'⟩

/-- What a stage that cannot begin has come to, however far it is. -/
theorem unbegun_of_stood (hnet : Reachable programs ctx p w net) (hstood : net.Stood programs ctx s i trace)
    (hcannot : s.CannotBegin ctx trace code line) : net.Unbegun ctx s i code line trace := by
  cases hstood with
  | ahead hplace haborted htrace =>
    subst htrace
    refine unbegun_of_ahead hnet (by omega) (List.forall_mem_nil _) fun fault hsome heq => ?_
    have hlt := haborted (hsome ▸ Option.some_ne_none _)
    omega
  | starting hplace hstarting hleft =>
    obtain ⟨full, started, hmade, hbegins, -⟩ := hleft.complete net.world
    obtain ⟨hpreparing, hoff⟩ := startStage_preparing (hcannot.mono hbegins) hmade
    rw [hoff] at hbegins
    refine unbegun_of_ahead hnet hplace.le (fun e he => hpreparing e (hbegins.subset he)) fun fault hsome _ => ?_
    cases (hnet.invariant.starting _ hstarting).1.symm.trans hsome
  | @failed full fault owned _ _ _ _ hplace hstarting haborted hmade htrace =>
    subst htrace
    obtain ⟨hpreparing, hoff⟩ := startStage_preparing hcannot hmade
    rw [hoff]
    refine unbegun_of_ahead hnet hplace.le hpreparing fun fault' hsome _ => ?_
    cases haborted.symm.trans hsome
    cases hname : Builtin.ofName? s.executable with
    | some b =>
      obtain ⟨-, m, hstarted, -⟩ := (startStage_makes hmade).1 b hname
      cases hstarted
    | none =>
      obtain ⟨r, owned', hcourse, hstarted⟩ := startStage_course hcannot hname hmade
      cases r with
      | ok done => cases hstarted
      | error fault' =>
        cases hstarted
        exact hcourse.onlyTells code
  | @builtin m b isLast hm hrole hb hleft =>
    obtain ⟨full, e, hmade, hbegins, hpiped⟩ := hleft.complete net.world
    obtain ⟨r, hcourse, -⟩ := builtinJob_course (hcannot.mono hbegins) hb hmade
    obtain ⟨hpreparing, hoff, hnot⟩ := course_preparing hcourse
    rw [hoff] at hbegins
    have hsilent : m.written = [] := by
      by_contra hsome
      exact hnot (hpiped hsome)
    refine unbegun_of_member hnet hm (fun e he => hpreparing e (hbegins.subset he)) (by simp [hrole]) hsilent
      fun e htask => ?_
    rw [htask] at hleft
    obtain ⟨full, hmade, rfl, -⟩ := hleft.done
    obtain ⟨r, hcourse, hresult⟩ := builtinJob_course hcannot hb hmade
    rw [(course_preparing hcourse).2.1, hresult]
    exact hcourse.onlyTells code
  | @started m m₀ full _ _ _ _ hm hrole hmade htrace hnot habsent =>
    subst htrace
    obtain ⟨r, owned, hcourse, hstarted⟩ := startStage_course hcannot hnot hmade
    obtain ⟨hpreparing, hoff, -⟩ := course_preparing hcourse
    cases r with
    | error fault => cases hstarted
    | ok done =>
      cases hstarted
      have hsilent : m.written = [] := by
        have hwired := (hnet.invariant.members i m hm).2.output_iff
        unfold Member.written
        cases houtput : m.output with
        | none => rfl
        | some pipe => exact absurd hrole (hwired.1 (by rw [houtput]; rfl)).1
      rw [hoff]
      refine unbegun_of_member hnet hm hpreparing (by simp [hrole, absent]) hsilent fun e htask => ?_
      cases (habsent rfl).symm.trans htask
      exact hcourse.onlyTells code

end Network

/-! ## Alone and in a pipeline -/

/-- A stage that cannot begin leaves nothing behind but one line of diagnostics, and has the status of that.
    On its own it leaves the session and all files as they are, but for its own file for diagnostics. In a pipeline,
    whatever the other stages do, it is no process and nothing comes to the pipe at its output. -/
theorem Stage.only_tells_of_cannotBegin (programs : Programs) (ctx : Context) (s : Stage) (code : Nat) (line : String) :
    (∀ (trace : List Exchange) (outcome : Outcome) (after : Context),
      (s.run programs ctx).makes trace (outcome, after) → s.CannotBegin ctx trace code line →
      (∃ result, (outcome, after) = settle ctx (result.map fun status => (.status status, ctx)) ∧
        s.OnlyTells ctx code line trace result) ∧
      ∀ (w w' : World) (path : String), w.Serves trace w' →
        World.Clear ((Streams.ofStage s ctx.directory false).FileAt .stderr) path World.reading w →
        w'.files.look path = w.files.look path) ∧
    ∀ (p : Pipeline) (w : World) (i : Nat) (trace : List Exchange) (net : Network), p.stages[i]? = some s →
      net.Chronicle programs ctx p w i trace → s.CannotBegin ctx trace code line →
      net.Unbegun ctx s i code line trace := by
  refine ⟨fun trace outcome after hmakes hcannot => ?_, fun p w i trace net hs hnet hcannot => ?_⟩
  · obtain ⟨course, handles, r, rfl, hcourse, hsettled⟩ := run_course hmakes hcannot
    refine ⟨⟨r.map fun _ => code, ?_, (hcourse.onlyTells code).closing handles⟩, ?_⟩
    · rw [hsettled]
      cases r <;> rfl
    · exact fun w w' path hserves hclear => hcourse.look_eq hserves hclear
  · exact Network.unbegun_of_stood hnet.reachable (hnet.stood hs) hcannot

namespace Sample

theorem isExecutableName_exit : IsExecutableName "exit" := by
  decide

/-- `exit < missing > out 2> errors` -/
def exiting : Stage :=
  ⟨"exit", [], some { stdin := some "missing", stdout := some "out", stderr := some "errors" }, isExecutableName_exit⟩

theorem exiting_cannotBegin : exiting.CannotBegin context ((exiting.run programs context).traceIn world) 1
    "exit: missing: No such file or directory" := by
  have hfails : FailsToOpen "/missing" .read
      [⟨.stat FileSystem.root "/missing" true, .error .noEntry⟩,
        ⟨.openFile FileSystem.root "/missing" .read, .error .noEntry⟩]
      (.system .noEntry "/missing") := .refused (by decide) nofun
  have hcannot : exiting.CannotBegin context ((exiting.run programs context).traceIn world) Builtin.failure _ :=
    .input rfl (.builtin rfl) hfails ⟨_, rfl⟩
  exact hcannot

theorem clear_out : World.Clear ((Streams.ofStage exiting context.directory false).FileAt .stderr) "/out"
    World.reading world := by
  have hout : world.files.locate FileSystem.root "/out" World.reading = .ok (.missing 0 "out") := rfl
  refine ⟨FileSystem.Sound.linked (by decide), ?_⟩
  rintro written ⟨name, ⟨⟩, rfl⟩ s herrors hs
  cases hout.symm.trans hs
  exact absurd herrors (by decide +kernel)

end Sample

theorem Stage.only_tells_of_cannotBegin_alone_and_in_pipeline :
    (∃ trace w', Sample.exiting.OnlyTells Sample.context 1 "exit: missing: No such file or directory" trace (.ok 1) ∧
      (Sample.exiting.run Sample.programs Sample.context).makes trace (.status 1, Sample.context) ∧
      Sample.world.Serves trace w' ∧ w'.files.look "/out" = .ok none) ∧
    ∃ trace net s, Sample.mixed.stages[0]? = some s ∧
      Network.Chronicle Sample.programs Sample.context Sample.mixed Sample.world 0 trace net ∧ net.isOver = true ∧
      net.statuses[0]? = some 127 ∧ net.Unbegun Sample.context s 0 127 "nosuch: command not found" trace := by
  refine ⟨?_, ?_⟩
  · have hmakes := Job.makes_traceIn (Sample.exiting.run Sample.programs Sample.context) Sample.world
    have hserves := Job.serves_traceIn (Sample.exiting.run Sample.programs Sample.context) Sample.world
    have hresult : ((Sample.exiting.run Sample.programs Sample.context).run Sample.world).1 =
        (.status 1, Sample.context) := by
      decide +kernel
    rw [hresult] at hmakes
    obtain ⟨⟨result, hsettled, htells⟩, hlook⟩ := (only_tells_of_cannotBegin Sample.programs Sample.context
      Sample.exiting _ _).1 _ _ _ hmakes Sample.exiting_cannotBegin
    cases result with
    | error fault => cases hsettled
    | ok status =>
      cases hsettled
      exact ⟨_, _, htells, hmakes, hserves, hlook _ _ _ hserves Sample.clear_out⟩
  · have hrun : ((Network.ofPipeline Sample.mixed Sample.world).follow Sample.programs Sample.context
        Sample.mixedMoves).any (fun net => net.isOver && net.statuses[0]? = some 127) = true := by
      decide +kernel
    obtain ⟨net, hnet, hfacts⟩ := (Option.any_eq_true _ _).1 hrun
    rw [Bool.and_eq_true, decide_eq_true_eq] at hfacts
    obtain ⟨trace, hchronicle⟩ := (Network.Reachable.ofPipeline.follow hnet).exists_chronicle 0
    have hlook : (Lookup.find Sample.context "nosuch").makes [] .notFound := Job.makes_done.2 ⟨rfl, rfl⟩
    exact ⟨trace, net, _, rfl, hchronicle, hfacts.1, hfacts.2, (only_tells_of_cannotBegin Sample.programs
      Sample.context _ _ _).2 _ _ _ _ _ rfl hchronicle (.missing hlook List.nil_prefix)⟩

end Conch
