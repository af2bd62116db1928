-- SUMMARY: A stage in two parts, getting to the command and running it, on its own and at the end of a pipeline.
import Conch.Pipeline.Network
import Conch.Proofs.Stage.Pairing
import Conch.Proofs.System.WeakestPre

/-!
# A stage in two parts

A stage on its own runs in one go. At the end of a pipeline it is started first,
which tells what cannot be run, and a built-in command runs later. `Stage.begin` and
`Stage.proceed` cut the stage on its own at the same point. Each part is paired with
the one of the stage in a pipeline: they do the same in worlds alike and come to
the same status or fault. Only the session that `cd` has moved is left out.
-/

namespace Conch

open StageM

variable {programs : Programs} {ctx : Context} {s : Stage} {w : World}

/-! ## The two parts -/

/-- How far a stage gets before its command runs. -/
inductive Begun where
  | builtin (b : Builtin)
  /-- There is nothing to run. That was told and gave a status, or it could not be told. -/
  | told (result : Except Fault Nat) (streams : Streams)
  | launched (job : Job Ending) (streams : Streams)

/-- What was done with a stage, as it counts for the session. -/
def settle (ctx : Context) : Except Fault (Outcome × Context) → Outcome × Context
  | .ok result => result
  | .error fault => (.failed fault, ctx)

namespace Stage

/-- Start the process of a stage with given streams, or tell why there is none and give the status. -/
def launchTold (programs : Programs) (ctx : Context) (s : Stage) (path : Path) (stdin : Source) (stdout : Sink) :
    StageM (Except Nat (Job Ending)) := do
  match ← Launch.launch programs ctx s path stdin stdout with
  | .error e =>
    Streams.error e.message
    return .error e.status
  | .ok job => return .ok job

/-- Get to the command of a stage that is on its own, once it is known what its name means. -/
def beginAs (programs : Programs) (ctx : Context) (s : Stage) : Resolution → Job Begun
  | .builtin b => return .builtin b
  | .notFound => do
    let (result, streams) ← Streams.error (Launch.notFoundLine s) (.ofStage s ctx.directory false)
    return .told (result.map fun _ => Launch.notFound) streams
  | .external path => do
    let (result, streams) ← launchTold programs ctx s path .empty .out (.ofStage s ctx.directory false)
    match result with
    | .error fault => return .told (.error fault) streams
    | .ok (.error status) => return .told (.ok status) streams
    | .ok (.ok job) => return .launched job streams

/-- Get to the command of a stage that is on its own. -/
def begin (programs : Programs) (ctx : Context) (s : Stage) : Job Begun := do
  let resolution ← Lookup.find ctx s.executable
  s.beginAs programs ctx resolution

/-- Run the command of a stage that is on its own. -/
def proceed (ctx : Context) (s : Stage) : Begun → Job (Except Fault (Outcome × Context) × Streams)
  | .builtin b => do
    let (result, streams) ← b.run s.args ctx (.ofStage s ctx.directory false)
    return (result.map fun r => (r.1.outcome, r.2), streams)
  | .told result streams => return (result.map fun code => (.status code, ctx), streams)
  | .launched job streams => do
    let ending ← job
    return (.ok (.status ending.status, ctx), streams)

end Stage

section Run

variable {α β : Type} {x : StageM α} {f : α → StageM β} {streams streams' : Streams} {w' : World}

theorem StageM.run_bind_ok {a : α} (h : Job.run (x streams) w = ((.ok a, streams'), w')) :
    Job.run ((x >>= f) streams) w = Job.run (f a streams') w' := by
  refine (Job.run_bind (x streams) _ w).trans ?_
  rw [h]
  rfl

theorem StageM.run_bind_error {fault : Fault} (h : Job.run (x streams) w = ((.error fault, streams'), w')) :
    Job.run ((x >>= f) streams) w = ((.error fault, streams'), w') := by
  refine (Job.run_bind (x streams) _ w).trans ?_
  rw [h]
  rfl

theorem StageM.run_liftM (j : Job α) (streams : Streams) (w : World) :
    Job.run ((liftM j : StageM α) streams) w = ((.ok (j.run w).1, streams), (j.run w).2) := by
  show Job.run ((j >>= fun a => pure (a, streams)) >>= fun p => pure (Except.ok p.1, p.2)) w = _
  rw [Job.run_bind, Job.run_bind]
  rfl

end Run

namespace Stage

/-- Doing what a stage is for is getting to its command and running it. -/
theorem act_run (resolution : Resolution) :
    Job.run (s.act programs ctx resolution (.ofStage s ctx.directory false)) w =
      (s.proceed ctx ((s.beginAs programs ctx resolution).run w).1).run
        ((s.beginAs programs ctx resolution).run w).2 := by
  cases resolution with
  | builtin b =>
    simp only [act, beginAs, proceed, Job.run_pure, Job.run_bind]
    rcases hrun : Job.run (b.run s.args ctx (.ofStage s ctx.directory false)) w with ⟨⟨result, streams⟩, w'⟩
    cases result with
    | ok r => exact run_bind_ok hrun
    | error fault => exact run_bind_error hrun
  | notFound =>
    simp only [act, beginAs, Job.run_pure, Job.run_bind]
    rcases hrun : Job.run (Streams.error (Launch.notFoundLine s) (.ofStage s ctx.directory false)) w
      with ⟨⟨result, streams⟩, w'⟩
    cases result with
    | ok r => exact run_bind_ok hrun
    | error fault => exact run_bind_error hrun
  | external path =>
    simp only [act, beginAs, launchTold, Job.run_bind]
    rcases hrun : Job.run (Launch.launch programs ctx s path .empty .out (.ofStage s ctx.directory false)) w
      with ⟨⟨result, streams⟩, w'⟩
    cases result with
    | error fault =>
      rw [run_bind_error hrun, run_bind_error hrun]
      rfl
    | ok result =>
      rw [run_bind_ok hrun, run_bind_ok hrun]
      cases result with
      | ok job =>
        dsimp only
        rw [run_bind_ok (run_liftM job streams w')]
        exact (Job.run_bind job (fun ending => pure (Except.ok (Outcome.status ending.status, ctx), streams)) w').symm
      | error e =>
        rcases htold : Job.run (Streams.error e.message streams) w' with ⟨⟨told, streams'⟩, w''⟩
        cases told with
        | ok done =>
          dsimp only
          rw [run_bind_ok htold, run_bind_ok htold]
          rfl
        | error fault =>
          dsimp only
          rw [run_bind_error htold, run_bind_error htold]
          rfl

/-- The name of a stage means a program, and the process of the program starts. -/
def Launches (programs : Programs) (ctx : Context) (s : Stage) (w : World) : Prop :=
  ∃ path job, ((Lookup.find ctx s.executable).run w).1 = .external path ∧
    (Job.run (Launch.launch programs ctx s path .empty .out (.ofStage s ctx.directory false))
      ((Lookup.find ctx s.executable).run w).2).1.1 = .ok (.ok job)

/-- A stage gets to a process only by launching one. -/
theorem launches_of_begin {job : Job Ending} {streams : Streams}
    (h : ((s.begin programs ctx).run w).1 = .launched job streams) : s.Launches programs ctx w := by
  unfold begin at h
  rw [Job.run_bind] at h
  unfold Launches
  generalize (Lookup.find ctx s.executable).run w = found at h ⊢
  obtain ⟨resolution, w₁⟩ := found
  cases resolution with
  | builtin b => cases h
  | notFound =>
    simp only [beginAs, Job.run_bind] at h
    cases h
  | external path =>
    simp only [beginAs, launchTold, Job.run_bind] at h
    dsimp only
    rcases hrun : Job.run (Launch.launch programs ctx s path .empty .out (.ofStage s ctx.directory false)) w₁
      with ⟨⟨result, streams₁⟩, w₂⟩
    cases result with
    | error fault =>
      rw [run_bind_error hrun] at h
      cases h
    | ok result =>
      rw [run_bind_ok hrun] at h
      cases result with
      | ok job => exact ⟨path, job, rfl, by rw [hrun]⟩
      | error e =>
        rcases htold : Job.run (Streams.error e.message streams₁) w₂ with ⟨⟨told, streams₂⟩, w₃⟩
        dsimp only at h
        cases told with
        | ok done =>
          rw [run_bind_ok htold] at h
          cases h
        | error fault =>
          rw [run_bind_error htold] at h
          cases h

end Stage

/-! ## Closing -/

theorem closeEach_run (handles : List Handle) (streams : Streams) (w : World) :
    Job.run ((handles.forM fun h => call (.close h) : StageM Unit) streams) w =
      ((.ok (), streams), handles.foldl World.close w) := by
  induction handles generalizing w with
  | nil => rfl
  | cons h rest ih =>
    show Job.run ((call (.close h) >>= fun _ => rest.forM fun h => call (.close h)) streams) w = _
    rw [call, run_bind_ok (run_liftM (Job.call (.close h)) streams w)]
    exact ih (w.close h)

theorem Streams.close_run (streams : Streams) (w : World) :
    (Job.run (Streams.close streams) w).2 = streams.owned.foldl World.close w := by
  show (Job.run (((streams.owned.forM fun h => call (.close h)) >>= fun _ =>
    set { streams with owned := [] } : StageM Unit) streams) w).2 = _
  rw [run_bind_ok (closeEach_run streams.owned streams w)]
  rfl

/-- What can be seen of a world from outside: files and the console. -/
structure World.SameView (w w' : World) : Prop where
  files : w'.files = w.files
  out : w'.out = w.out
  err : w'.err = w.err

theorem World.closeAll_view (handles : List Handle) (w : World) : w.SameView (handles.foldl World.close w) := by
  induction handles generalizing w with
  | nil => exact ⟨rfl, rfl, rfl⟩
  | cons h rest ih =>
    have hclose : w.SameView (w.close h) := by
      unfold World.close
      split
      · exact ⟨rfl, rfl, rfl⟩
      · exact ⟨rfl, rfl, rfl⟩
    have hrest := ih (w.close h)
    exact ⟨hrest.files.trans hclose.files, hrest.out.trans hclose.out, hrest.err.trans hclose.err⟩

namespace Stage

/-- All that a stage on its own does before it closes its files. -/
def work (programs : Programs) (ctx : Context) (s : Stage) : Job (Except Fault (Outcome × Context) × Streams) := do
  let begun ← s.begin programs ctx
  s.proceed ctx begun

/-- A stage on its own gets to its command, runs it and closes its files. -/
theorem run_eq_work :
    (s.run programs ctx).run w =
      (settle ctx ((s.work programs ctx).run w).1.1,
        ((s.work programs ctx).run w).1.2.owned.foldl World.close ((s.work programs ctx).run w).2) := by
  unfold run work begin closing
  simp only [Job.run_bind, act_run]
  generalize (s.proceed ctx _).run _ = ran
  obtain ⟨⟨result, streams⟩, w'⟩ := ran
  rw [← Streams.close_run]
  cases result with
  | ok r => rfl
  | error fault => rfl

end Stage

/-! ## The same at the end of a pipeline -/

/-- What an outcome counts for in a pipeline: a request to end is only a status. -/
def Outcome.inPipeline : Outcome → Outcome
  | .exit code => .status code
  | outcome => outcome

/-- What a stage of a pipeline came to. -/
def StageEnd.outcome (e : StageEnd) : Outcome :=
  match e.result with
  | .ok code => .status code
  | .error fault => .failed fault

namespace Stage

/-- What starting the last stage of a pipeline comes to, by what the stage on its own comes to. -/
inductive StartedAs (ctx : Context) (s : Stage) : Begun → Started → Prop
  | builtin {b : Builtin} {m : Member} (htask : m.task = .running (Network.builtinJob b s ctx true)) :
    StartedAs ctx s (.builtin b) (.ok m)
  | absent (code : Nat) (streams : Streams) (owned : List Handle) :
    StartedAs ctx s (.told (.ok code) streams) (.ok (Network.absent code owned))
  | fault (fault : Fault) (streams : Streams) (owned : List Handle) :
    StartedAs ctx s (.told (.error fault) streams) (.error (fault, owned))
  | process (job : Job Ending) (streams : Streams) (started : Started) :
    StartedAs ctx s (.launched job streams) started

/-- What a stage came to counts for the same. -/
def EndsAs (ctx : Context) (r : Except Fault (Outcome × Context) × Streams) (e : StageEnd) : Prop :=
  (settle ctx r.1).1.inPipeline = e.outcome

variable {F : Touch → Prop} {T : Ties}

theorem launchTold_paired (path : Path) (stdin stdin' : Source) (stdout stdout' : Sink) :
    Paired F (fun _ r r' => ExceptTied (fun _ _ => True) r r') T (launchTold programs ctx s path stdin stdout)
      (launchTold programs ctx s path stdin' stdout') := by
  unfold launchTold
  refine paired_bind (Launch.launch_paired programs ctx s path _ _ _ _) fun T₁ _ job job' hjob => ?_
  cases hjob with
  | error e => exact paired_bind_same (Streams.error_paired _) fun _ _ _ => paired_pure fun _ _ => .error _
  | ok h => exact paired_pure fun _ _ => .ok trivial

/-- Getting to the command of the last stage is the same, for a command that is not a process. -/
theorem begin_paired (isFirst : Bool) (inputSize outputSize : Nat) :
    Job.Paired F (fun _ => StartedAs ctx s) T (s.begin programs ctx)
      (Network.startStage programs ctx isFirst true inputSize outputSize s) := by
  unfold begin Network.startStage
  refine Job.paired_bind (Lookup.find_paired ctx s.executable) fun T₁ _ resolution resolution' hsame => ?_
  cases hsame
  have hstreams := streamsTied_ofStage T₁ s ctx.directory
  cases resolution with
  | builtin b => exact Job.paired_pure (.builtin rfl)
  | notFound =>
    refine Job.paired_bind ((Streams.error_paired _).job hstreams) ?_
    rintro T₂ - ⟨result, σ⟩ ⟨result', τ⟩ ⟨hresult, -⟩
    cases hresult with
    | error fault => exact Job.paired_pure (.fault fault σ _)
    | ok hsame => exact Job.paired_pure (.absent _ σ _)
  | external path =>
    refine Job.paired_bind ((launchTold_paired path .empty .pipe .out .out).job hstreams) ?_
    rintro T₂ - ⟨result, σ⟩ ⟨result', τ⟩ ⟨hresult, -⟩
    cases hresult with
    | error fault => exact Job.paired_pure (.fault fault σ _)
    | ok hjob =>
      cases hjob with
      | error status => exact Job.paired_pure (.absent status σ _)
      | ok h => exact Job.paired_pure (.process _ σ _)

/-- Running the command of the last stage is the same, for a built-in command. -/
theorem proceed_paired (b : Builtin) :
    Job.Paired F (fun _ => EndsAs ctx) T (s.proceed ctx (.builtin b)) (Network.builtinJob b s ctx true) := by
  unfold Network.builtinJob
  refine Job.paired_bind ((Builtin.run_paired b s.args ctx).job (streamsTied_ofStage T s ctx.directory)) ?_
  rintro T₁ - ⟨result, σ⟩ ⟨result', τ⟩ ⟨hresult, -⟩
  cases hresult with
  | error fault => exact Job.paired_pure rfl
  | @ok r r' hsame =>
    cases hsame
    obtain ⟨ending, ctx'⟩ := r
    cases ending with
    | status code => exact Job.paired_pure rfl
    | exitRequest code => exact Job.paired_pure rfl

end Stage

/-! ## The session -/

/-- A `cd` has moved the session to the directory that its operand means. -/
structure Stage.Moved (ctx : Context) (s : Stage) (outcome : Outcome) (after : Context) : Prop where
  executable : s.executable = "cd"
  outcome : outcome = .status Builtin.success
  context : ∃ target, (s.args = [] ∧ target = "~" ∨ s.args = [target]) ∧
    after = ctx.moveTo (Builtin.destination ctx target)

namespace StageM

variable {α β : Type} {P : α → Prop} {R : β → Prop}

/-- What a stage does comes to a fault or to a result of a certain kind. -/
def Yields (P : α → Prop) (x : StageM α) : Prop :=
  ∀ streams, wp x (fun result _ => ∀ a, result = .ok a → P a) streams

theorem yields_pure {a : α} (h : P a) : Yields P (pure a) := by
  intro streams
  rw [wp_pure]
  rintro a ⟨⟩
  exact h

theorem yields_bind {x : StageM β} {f : β → StageM α} (hx : Yields R x) (hf : ∀ b, R b → Yields P (f b)) :
    Yields P (x >>= f) := by
  intro streams
  rw [wp_bind]
  refine wp_mono ?_ (hx streams)
  intro result after hresult
  cases result with
  | ok b => exact hf b (hresult b rfl) after
  | error fault => rintro a ⟨⟩

theorem yields_any (x : StageM β) : Yields (fun _ => True) x :=
  fun _ => Job.wp_of_forall (fun _ _ _ => trivial) _

theorem yields_attempt {x : StageM α} (hx : Yields P x) :
    Yields (fun result => ∀ a, result = .ok a → P a) (attempt x) := by
  intro streams
  rw [wp_attempt]
  refine wp_mono ?_ (hx streams)
  rintro result after hresult _ ⟨⟩
  exact hresult

end StageM

namespace Builtin

variable {args : List String}

/-- The session stays where it is, or `cd` has moved it. -/
def Kept (ctx : Context) (args : List String) (b : Builtin) (r : BuiltinEnd × Context) : Prop :=
  r.2 = ctx ∨ b = .cd ∧ r.1 = .status success ∧
    ∃ target, (args = [] ∧ target = "~" ∨ args = [target]) ∧ r.2 = ctx.moveTo (destination ctx target)

theorem moveTo_kept {target : String} (h : args = [] ∧ target = "~" ∨ args = [target]) :
    Yields (Kept ctx args .cd) (moveTo ctx target) := by
  refine yields_bind (yields_any _) fun kind _ => ?_
  split
  · exact yields_bind (yields_any _) fun _ _ => yields_pure (.inl rfl)
  · exact yields_pure (.inr ⟨rfl, rfl, target, h, rfl⟩)
  · exact yields_bind (yields_any _) fun _ _ => yields_pure (.inl rfl)

theorem body_kept (b : Builtin) : Yields (Kept ctx args b) (body b args ctx) := by
  cases b with
  | cd =>
    show Yields _ (runCd ctx args)
    unfold runCd
    split
    · exact moveTo_kept (.inl ⟨rfl, rfl⟩)
    · exact moveTo_kept (.inr rfl)
    · exact yields_bind (yields_any _) fun _ _ => yields_pure (.inl rfl)
  | _ => exact yields_bind (yields_any _) fun _ _ => yields_pure (.inl rfl)

theorem run_kept (b : Builtin) : Yields (Kept ctx args b) (run b args ctx) := by
  refine yields_bind (yields_any _) fun input _ => ?_
  cases input with
  | error fault =>
    refine yields_bind (yields_any _) fun streams _ => ?_
    exact yields_bind (yields_any _) fun _ _ => yields_pure (.inl rfl)
  | ok handle =>
    refine yields_bind (yields_attempt (body_kept b)) fun result hresult => ?_
    split
    · exact yields_pure (hresult _ rfl)
    · exact yields_pure (.inl rfl)
    · exact yields_bind (yields_any _) fun _ _ => yields_pure (.inl rfl)

end Builtin

theorem Job.wp_run {α : Type} {j : Job α} {Q : α → Prop} (h : j.wp Q) (w : World) : Q (j.run w).1 := by
  induction j generalizing w with
  | done a => exact (wp_done a Q).1 h
  | ask c resume ih => exact ih _ ((wp_ask c resume Q).1 h _) _

theorem Lookup.find_wp (name : String) :
    (find ctx name).wp fun resolution => ∀ b, resolution = .builtin b → Builtin.ofName? name = some b := by
  unfold find
  split
  · rename_i b hname
    rw [Job.wp_pure]
    rintro _ ⟨⟩
    exact hname
  · rw [Job.wp_bind]
    refine Job.wp_of_forall (fun found => ?_) _
    cases found with
    | none =>
      rw [Job.wp_pure]
      rintro b ⟨⟩
    | some path =>
      rw [Job.wp_pure]
      rintro b ⟨⟩

theorem Builtin.name_of_ofName? {name : String} {b : Builtin} (h : ofName? name = some b) : name = b.name := by
  unfold ofName? at h
  split at h
  · cases h
    assumption
  split at h
  · cases h
    assumption
  split at h
  · cases h
    assumption
  split at h
  · cases h
    assumption
  · cases h

namespace Stage

theorem proceed_wp {begun : Begun} (hbegun : ∀ b, begun = .builtin b → Builtin.ofName? s.executable = some b) :
    (s.proceed ctx begun).wp fun r => ∀ outcome after, r.1 = .ok (outcome, after) →
      after = ctx ∨ s.Moved ctx outcome after := by
  cases begun with
  | builtin b =>
    refine (Job.wp_bind _ _ _).2 (Job.wp_mono ?_ (Builtin.run_kept b _))
    rintro ⟨result, streams⟩ hkept
    rw [Job.wp_pure]
    cases result with
    | error fault => rintro outcome after ⟨⟩
    | ok r =>
      rintro outcome after ⟨⟩
      obtain hsame | ⟨rfl, hstatus, hmoved⟩ := hkept r rfl
      · exact .inl hsame
      · refine .inr ⟨Builtin.name_of_ofName? (hbegun .cd rfl), ?_, hmoved⟩
        rw [hstatus]
        rfl
  | told result streams =>
    refine (Job.wp_pure _ _).2 ?_
    cases result with
    | error fault => rintro outcome after ⟨⟩
    | ok code =>
      rintro outcome after ⟨⟩
      exact .inl rfl
  | launched job streams =>
    refine (Job.wp_bind _ _ _).2 (Job.wp_of_forall (fun ending => ?_) _)
    rw [Job.wp_pure]
    rintro outcome after ⟨⟩
    exact .inl rfl

theorem beginAs_wp (resolution : Resolution) :
    (s.beginAs programs ctx resolution).wp fun begun => ∀ b, begun = .builtin b → resolution = .builtin b := by
  cases resolution with
  | builtin b =>
    refine (Job.wp_pure _ _).2 ?_
    rintro _ ⟨⟩
    rfl
  | notFound =>
    refine (Job.wp_bind _ _ _).2 (Job.wp_of_forall (fun r => ?_) _)
    rw [Job.wp_pure]
    rintro b ⟨⟩
  | external path =>
    refine (Job.wp_bind _ _ _).2 (Job.wp_of_forall (fun r => ?_) _)
    obtain ⟨fault | status | job, streams⟩ := r
    · refine (Job.wp_pure _ _).2 ?_
      rintro b ⟨⟩
    · refine (Job.wp_pure _ _).2 ?_
      rintro b ⟨⟩
    · refine (Job.wp_pure _ _).2 ?_
      rintro b ⟨⟩

/-- Only a `cd` that succeeds moves the session. -/
theorem context_after_run (s : Stage) (programs : Programs) (ctx : Context) (w : World) :
    ((s.run programs ctx).run w).1.2 = ctx ∨
      s.Moved ctx ((s.run programs ctx).run w).1.1 ((s.run programs ctx).run w).1.2 := by
  have hwork : (s.work programs ctx).wp fun r => ∀ outcome after, r.1 = .ok (outcome, after) →
      after = ctx ∨ s.Moved ctx outcome after := by
    unfold work begin
    rw [Job.wp_bind, Job.wp_bind]
    refine Job.wp_mono ?_ (Lookup.find_wp s.executable)
    intro resolution hresolution
    refine Job.wp_mono ?_ (beginAs_wp resolution)
    exact fun begun hbegun => proceed_wp fun b hb => hresolution b (hbegun b hb)
  have hran := Job.wp_run hwork w
  rw [run_eq_work]
  generalize ((s.work programs ctx).run w).1.1 = result at hran ⊢
  cases result with
  | error fault => exact .inl rfl
  | ok r => exact hran r.1 r.2 rfl

end Stage

end Conch
