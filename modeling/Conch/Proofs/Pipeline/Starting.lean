-- SUMMARY: What a stage of a pipeline is when it is started: its role, its pipes, and the streams of its process.
import Conch.Pipeline.Network
import Conch.Proofs.System.WeakestPre

/-!
# Started stages

A stage is started by a job, and what comes of it is told here for every way in
which the world may reply. A built-in stage has no pipe at its input. A process
has its input and its output at pipes wherever no file takes their place, except
that the last stage writes to the console. A stage that could not be started has
no pipes at all. New pipes are empty, and the one at the input of the first stage
has no writer.
-/

namespace Conch

/-! ## Streams keep what they were set up with -/

namespace Streams

/-- Two states of the streams of one stage: what they were set up with is the same. -/
structure SameSetup (streams after : Streams) : Prop where
  directory : after.directory = streams.directory
  redirects : after.redirects = streams.redirects
  toPipe : after.toPipe = streams.toPipe

theorem SameSetup.rfl {streams : Streams} : streams.SameSetup streams :=
  ⟨Eq.refl _, Eq.refl _, Eq.refl _⟩

open StageM

variable {base : Streams}

theorem openOwned_maintains (name : String) (mode : FileSystem.Mode) :
    Maintains base.SameSetup (openOwned name mode) := by
  refine maintains_get_bind fun streams h => ?_
  have hown : ∀ handle : Handle, Maintains base.SameSetup
      (do set { streams with owned := handle :: streams.owned }; return handle) := by
    intro handle
    exact maintains_bind (maintains_set ⟨h.directory, h.redirects, h.toPipe⟩) fun _ => maintains_pure handle
  dsimp only
  split
  · exact maintains_throw_bind _ _
  refine maintains_bind (maintains_call _) fun reply => ?_
  split
  · exact maintains_throw_bind _ _
  refine maintains_bind (maintains_call _) fun reply => ?_
  cases reply with
  | error cause => exact maintains_throw _
  | ok handle =>
    dsimp only
    split
    · refine maintains_bind (maintains_call _) fun reply => ?_
      cases reply with
      | error cause => exact maintains_bind (maintains_call _) fun _ => maintains_throw_bind _ _
      | ok done => exact hown handle
    · exact hown handle

theorem writeNow_maintains (sink : Sink) (data : Bytes) : Maintains base.SameSetup (writeNow sink data) := by
  refine maintains_bind (maintains_call _) fun reply => ?_
  split
  · exact maintains_pure _
  · exact maintains_throw _
  · exact maintains_throw _

theorem setUnwritten_maintains (h : Handle) (data : Bytes) :
    Maintains base.SameSetup (setUnwritten h data) :=
  maintains_modify fun _ hsame => ⟨hsame.directory, hsame.redirects, hsame.toPipe⟩

theorem writeFile_maintains (h : Handle) (data : Bytes) : Maintains base.SameSetup (writeFile h data) := by
  refine maintains_bind (writeNow_maintains _ _) fun _ => maintains_get_bind fun streams _ => ?_
  dsimp only
  split
  · exact maintains_bind (setUnwritten_maintains _ _) fun _ =>
      maintains_bind (writeNow_maintains _ _) fun _ => setUnwritten_maintains _ _
  · exact maintains_bind (writeNow_maintains _ _) fun _ =>
      maintains_bind (setUnwritten_maintains _ _) fun _ => writeNow_maintains _ _

theorem lineTo_maintains (sink : Sink) (text : String) : Maintains base.SameSetup (lineTo sink text) := by
  unfold lineTo writeTo
  split
  · exact writeFile_maintains _ _
  · exact writeNow_maintains _ _

theorem stderrHandle_maintains : Maintains base.SameSetup stderrHandle := by
  refine maintains_get_bind fun streams h => ?_
  split
  · exact maintains_pure _
  split
  · exact maintains_pure _
  split
  · exact maintains_pure _
  refine maintains_bind (maintains_attempt (openOwned_maintains _ _)) fun result => ?_
  cases result with
  | ok handle =>
    refine maintains_bind (maintains_modify fun _ hsame => ?_) fun _ => maintains_pure _
    exact ⟨hsame.directory, hsame.redirects, hsame.toPipe⟩
  | error fault =>
    refine maintains_bind (maintains_modify fun _ hsame => ?_) fun _ =>
      maintains_bind (lineTo_maintains _ _) fun _ => maintains_pure _
    exact ⟨hsame.directory, hsame.redirects, hsame.toPipe⟩

theorem stdinHandle_maintains : Maintains base.SameSetup stdinHandle := by
  refine maintains_get_bind fun streams h => ?_
  split
  · exact maintains_pure _
  · exact maintains_pure _
  · refine maintains_bind (openOwned_maintains _ _) fun handle =>
      maintains_bind (maintains_modify fun _ hsame => ?_) fun _ => maintains_pure _
    exact ⟨hsame.directory, hsame.redirects, hsame.toPipe⟩

theorem stdoutHandle_maintains : Maintains base.SameSetup stdoutHandle := by
  refine maintains_get_bind fun streams h => ?_
  split
  · exact maintains_pure _
  · exact maintains_pure _
  · refine maintains_bind (openOwned_maintains _ _) fun handle =>
      maintains_bind (maintains_modify fun _ hsame => ?_) fun _ => maintains_pure _
    exact ⟨hsame.directory, hsame.redirects, hsame.toPipe⟩

/-- Without a file for it, input is not opened. -/
theorem stdinHandle_spec {streams : Streams} (h : base.SameSetup streams) :
    wp stdinHandle (fun result after => base.SameSetup after ∧
      (base.redirects.stdin = none → result = .ok none)) streams := by
  cases hfile : base.redirects.stdin with
  | none =>
    rw [stdinHandle, wp_bind, wp_get]
    dsimp only
    rw [h.redirects, hfile]
    exact (wp_pure _).2 ⟨h, fun _ => rfl⟩
  | some name =>
    refine wp_mono ?_ (stdinHandle_maintains streams h)
    intro result after hafter
    exact ⟨hafter, fun hnone => by cases hnone⟩

/-- Without a file for it, output is not opened. -/
theorem stdoutHandle_spec {streams : Streams} (h : base.SameSetup streams) :
    wp stdoutHandle (fun result after => base.SameSetup after ∧
      (base.redirects.stdout = none → result = .ok none)) streams := by
  cases hfile : base.redirects.stdout with
  | none =>
    rw [stdoutHandle, wp_bind, wp_get]
    dsimp only
    rw [h.redirects, hfile]
    exact (wp_pure _).2 ⟨h, fun _ => rfl⟩
  | some name =>
    refine wp_mono ?_ (stdoutHandle_maintains streams h)
    intro result after hafter
    exact ⟨hafter, fun hnone => by cases hnone⟩

@[simp] theorem ofStage_stdin (s : Stage) (directory : Path) (toPipe : Bool) :
    (ofStage s directory toPipe).redirects.stdin = s.stdin? := by
  unfold ofStage Stage.stdin?
  cases s.redirects with
  | none => rfl
  | some r => rfl

@[simp] theorem ofStage_stdout (s : Stage) (directory : Path) (toPipe : Bool) :
    (ofStage s directory toPipe).redirects.stdout = s.stdout? := by
  unfold ofStage Stage.stdout?
  cases s.redirects with
  | none => rfl
  | some r => rfl

@[simp] theorem ofStage_stderr (s : Stage) (directory : Path) (toPipe : Bool) :
    (ofStage s directory toPipe).redirects.stderr = s.stderr? := by
  unfold ofStage Stage.stderr?
  cases s.redirects with
  | none => rfl
  | some r => rfl

end Streams

/-! ## Processes -/

/-- A job is an installed program whose input and output are in certain places. -/
def RunsWith (programs : Programs) (stdin : Source) (stdout : Sink) (job : Job Ending) : Prop :=
  ∃ name program call, programs name = some program ∧ call.stdin = stdin ∧ call.stdout = stdout ∧
    job = program call

/-- A file that is started as a process has the streams that it is started with. -/
theorem startFile_spec (programs : Programs) (path : Raw) (call : Invocation) :
    (startFile programs path call).wp fun result => ∀ job, result = .ok job →
      RunsWith programs call.stdin call.stdout job := by
  unfold startFile
  split
  · rw [Job.wp_pure]
    rintro job ⟨⟩
  rw [Job.wp_bind]
  refine Job.wp_of_forall (fun image => ?_) _
  cases image with
  | error e =>
    rw [Job.wp_pure]
    rintro job ⟨⟩
  | ok image =>
    dsimp only
    split
    · rw [Job.wp_pure]
      rintro job ⟨⟩
    · rename_i program hprogram
      rw [Job.wp_pure]
      rintro job ⟨⟩
      refine ⟨image.program, program, _, hprogram, ?_, ?_, rfl⟩ <;> rfl

namespace Launch

open StageM

theorem child_spec (programs : Programs) (ctx : Context) (s : Stage) (path : Path)
    (stdin : Source) (stdout stderr : Sink) :
    (child programs ctx s path stdin stdout stderr).wp fun result => ∀ job, result = .ok job →
      RunsWith programs stdin stdout job := by
  unfold child
  split
  · rw [Job.wp_pure]
    rintro job ⟨⟩
  rw [Job.wp_bind, Job.wp_call]
  intro reply
  cases reply with
  | error e =>
    rw [Job.wp_pure]
    rintro job ⟨⟩
  | ok directory =>
    dsimp only
    rw [Job.wp_bind, Job.wp_call]
    intro environment
    rw [Job.wp_bind]
    refine Job.wp_mono ?_ (startFile_spec programs _ _)
    intro result hresult
    cases result with
    | error e =>
      rw [Job.wp_pure]
      rintro job ⟨⟩
    | ok job =>
      rw [Job.wp_pure]
      rintro _ ⟨⟩
      exact hresult job rfl

/-- A process has its input and its output where it is told to, unless a file takes their place. -/
theorem launch_spec (programs : Programs) (ctx : Context) (s : Stage) (path : Path)
    (stdin : Source) (stdout : Sink) (streams : Streams) :
    wp (launch programs ctx s path stdin stdout) (fun result _ => ∀ job, result = .ok (.ok job) →
      ∃ input output, RunsWith programs input output job ∧
        (streams.redirects.stdin = none → input = stdin) ∧
        (streams.redirects.stdout = none → output = stdout)) streams := by
  rw [launch, wp_bind]
  refine wp_mono ?_ (Streams.stderrHandle_maintains streams .rfl)
  intro errors streams₁ h₁
  cases errors with
  | error fault => rintro job ⟨⟩
  | ok errors =>
    dsimp only
    rw [wp_bind, wp_attempt]
    refine wp_mono ?_ (Streams.stdinHandle_spec h₁)
    rintro input streams₂ ⟨h₂, hinput⟩
    cases input with
    | error fault =>
      dsimp only
      rw [wp_pure]
      rintro job ⟨⟩
    | ok input =>
      dsimp only
      rw [wp_bind, wp_attempt]
      refine wp_mono ?_ (Streams.stdoutHandle_spec h₂)
      rintro output streams₃ ⟨-, houtput⟩
      cases output with
      | error fault =>
        dsimp only
        rw [wp_pure]
        rintro job ⟨⟩
      | ok output =>
        dsimp only
        rw [wp_bind, wp_liftM]
        refine Job.wp_mono ?_ (child_spec programs ctx s path _ _ _)
        intro result hresult
        cases result with
        | error fault =>
          dsimp only
          rw [wp_pure]
          rintro job ⟨⟩
        | ok job =>
          dsimp only
          rw [wp_pure]
          rintro _ ⟨⟩
          refine ⟨_, _, hresult job rfl, ?_, ?_⟩
          · intro hnone
            cases hinput hnone
            rfl
          · intro hnone
            cases houtput hnone
            rfl

end Launch

/-! ## New members -/

/-- What a stage of a pipeline is when it has just been started. A process has its pipes where its
    program reads and writes, and the pipes have not been used. -/
inductive Member.Fresh (programs : Programs) (isFirst isLast : Bool) (s : Stage) : Member → Prop
  | builtin (job : Job StageEnd) (size : Nat) :
    Fresh programs isFirst isLast s
      { role := .builtin
        task := .running job
        output := if isLast then none else some (.ofSize size) }
  | absent (status : Nat) (owned : List Handle) :
    Fresh programs isFirst isLast s (Network.absent status owned)
  | process {job : Job Ending} {stdin : Source} {stdout : Sink} (owned : List Handle)
      (inputSize outputSize : Nat) (hruns : RunsWith programs stdin stdout job)
      (hstdin : s.stdin? = none → stdin = .pipe)
      (hstdout : s.stdout? = none → stdout = if isLast then .out else .pipe) :
    Fresh programs isFirst isLast s
      { role := .process
        task := .running (Network.programJob job owned)
        input := if s.stdin?.isSome then none else some (Network.inputPipe isFirst inputSize)
        output := if isLast || s.stdout?.isSome then none else some (.ofSize outputSize) }

namespace Network

theorem launchStage_spec (programs : Programs) (ctx : Context) (isLast : Bool) (s : Stage)
    (path : Path) (streams : Streams) :
    StageM.wp (launchStage programs ctx isLast s path) (fun result _ => ∀ job, result = .ok (.ok job) →
      ∃ input output, RunsWith programs input output job ∧
        (streams.redirects.stdin = none → input = .pipe) ∧
        (streams.redirects.stdout = none → output = if isLast then .out else .pipe)) streams := by
  rw [launchStage, StageM.wp_bind]
  refine StageM.wp_mono ?_ (Launch.launch_spec programs ctx s path _ _ streams)
  intro result streams₁ hresult
  cases result with
  | error fault => rintro job ⟨⟩
  | ok result =>
    cases result with
    | error e =>
      refine (StageM.wp_bind _ _).2 (Job.wp_of_forall ?_ _)
      rintro ⟨told, streams₂⟩
      cases told with
      | error fault => rintro job ⟨⟩
      | ok done =>
        dsimp only
        rw [StageM.wp_pure]
        rintro job ⟨⟩
    | ok job =>
      dsimp only
      rw [StageM.wp_pure]
      rintro _ ⟨⟩
      exact hresult job rfl

/-- Whatever the world replies, a stage that gets started is a new member with the pipes that its
    place in the pipeline asks for. -/
theorem startStage_spec (programs : Programs) (ctx : Context) (isFirst isLast : Bool)
    (inputSize outputSize : Nat) (s : Stage) :
    (startStage programs ctx isFirst isLast inputSize outputSize s).wp fun result =>
      ∀ m, result = .ok m → m.Fresh programs isFirst isLast s := by
  rw [startStage, Job.wp_bind]
  refine Job.wp_of_forall (fun resolution => ?_) _
  cases resolution with
  | builtin b =>
    rw [Job.wp_pure]
    rintro m ⟨⟩
    exact .builtin _ _
  | notFound =>
    refine (Job.wp_bind _ _ _).2 (Job.wp_of_forall ?_ _)
    rintro ⟨result, streams⟩
    cases result with
    | error fault =>
      rw [Job.wp_pure]
      rintro m ⟨⟩
    | ok done =>
      rw [Job.wp_pure]
      rintro m ⟨⟩
      exact .absent _ _
  | external path =>
    refine (Job.wp_bind _ _ _).2 (Job.wp_mono ?_ (launchStage_spec programs ctx isLast s path _))
    rintro ⟨result, streams⟩ hresult
    cases result with
    | error fault =>
      rw [Job.wp_pure]
      rintro m ⟨⟩
    | ok result =>
      cases result with
      | error status =>
        rw [Job.wp_pure]
        rintro m ⟨⟩
        exact .absent _ _
      | ok job =>
        rw [Job.wp_pure]
        rintro m ⟨⟩
        obtain ⟨input, output, hruns, hinput, houtput⟩ := hresult job rfl
        rw [Streams.ofStage_stdin] at hinput
        rw [Streams.ofStage_stdout] at houtput
        exact .process _ _ _ hruns hinput houtput

end Network

end Conch
