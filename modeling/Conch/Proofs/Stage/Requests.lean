-- SUMMARY: The calls that are made for a stage: every name in them is resolved against the context it was given.
import Conch.Proofs.Stage.Diagnostics
import Conch.Proofs.Stage.Phases
import Conch.Proofs.System.Tracking

/-!
# Requests of a stage

`Stage.Request` lists the calls that can be made for a stage until it is a process:
looking its executable up, opening its files, what a built-in command does, and
starting the process. All of them are about paths that come from the stage and a
context, and the child is started in a directory that the context's directory leads
to. Output goes to a pipe, unless the stage is the last one.

Each function of a stage is shown to make no other calls, whatever the world
replies, and to own all files that it has opened and not closed again.
-/

namespace Conch

open StageM

variable {D : Ino → Prop} {programs : Programs} {ctx : Context} {s : Stage} {isLast toPipe : Bool}

/-! ## What is asked for -/

namespace Stage

/-- The files that a stage names, and how they are opened. -/
inductive Redirected (s : Stage) : String → FileSystem.Mode → Prop
  | input {name : String} (h : s.stdin? = some name) : Redirected s name .read
  | output {name : String} (h : s.stdout? = some name) :
    Redirected s name (if s.appends then .append else .truncate)
  | errors {name : String} (h : s.stderr? = some name) : Redirected s name .truncate

/-- The paths that the operands of `cd` and `type` mean. -/
inductive Operand (ctx : Context) (s : Stage) : Path → Prop
  | cd {target : String} (hname : s.executable = "cd") (h : s.args = [] ∧ target = "~" ∨ s.args = [target]) :
    Operand ctx s (Builtin.destination ctx target)
  | type {name : String} (hname : s.executable = "type") (h : name ∈ s.args) :
    Operand ctx s (ctx.resolve (.ofString name))

/-- The files that are read to start a process: the executable, and the interpreter that a script names. -/
inductive Image (ctx : Context) (s : Stage) : String → Prop
  | file {path : Path} (h : path ∈ Lookup.candidates ctx s.executable) :
    Image ctx s (Raw.decode (Raw.encode path.toString))
  | interpreter {content : Bytes} {line : ScriptLine} (h : scriptLine? content = some line) :
    Image ctx s (Raw.decode line.interpreter)

/-- The calls that can be made for a stage. The directories that a child can be started in are those of `D`. -/
inductive Request (D : Ino → Prop) (ctx : Context) (s : Stage) (isLast : Bool) : Call → Prop
  | lookUp {path : Path} (h : path ∈ Lookup.candidates ctx s.executable) :
    Request D ctx s isLast (.stat FileSystem.root path.toString true)
  | look {name : String} {mode : FileSystem.Mode} (h : s.Redirected name mode) :
    Request D ctx s isLast (.stat FileSystem.root (ctx.resolve (.ofString name)).toString true)
  | openFile {name : String} {mode : FileSystem.Mode} (h : s.Redirected name mode) :
    Request D ctx s isLast (.openFile FileSystem.root (ctx.resolve (.ofString name)).toString mode)
  | seekEnd (h : Handle) : Request D ctx s isLast (.seekEnd h)
  | close (h : Handle) : Request D ctx s isLast (.close h)
  | operand {path : Path} (h : s.Operand ctx path) :
    Request D ctx s isLast (.stat FileSystem.root path.toString true)
  | copy {path : Path} (hname : s.executable = "type") (h : s.Operand ctx path) :
    Request D ctx s isLast (.fetch FileSystem.root path.toString)
  | enter : Request D ctx s isLast (.enter FileSystem.root ctx.directory.toString)
  | environment : Request D ctx s isLast .environment
  | image {base : Ino} {path : String} (hbase : D base) (h : s.Image ctx path) :
    Request D ctx s isLast (.stat base path true)
  | script {base : Ino} {path : String} (hbase : D base) (h : s.Image ctx path) :
    Request D ctx s isLast (.fetch base path)
  | toFile (h : Handle) (data : Bytes) : Request D ctx s isLast (.write (.file h) data)
  | toErr (data : Bytes) : Request D ctx s isLast (.write .err data)
  | toOut (hlast : isLast = true) (hfile : s.stdout? = none) (data : Bytes) :
    Request D ctx s isLast (.write .out data)
  | toPipe (hlast : isLast = false) (hfile : s.stdout? = none) (data : Bytes) :
    Request D ctx s isLast (.write .pipe data)

end Stage

/-- What a stage can rely on: the directory of a context leads to a directory of `D`, and the console takes
    every diagnostic. -/
def Call.Reliable (D : Ino → Prop) (ctx : Context) : (c : Call) → c.Reply → Prop
  | .enter base path, .ok d => base = FileSystem.root → path = ctx.directory.toString → D d
  | .write .err _, reply => reply = .ok ()
  | _, _ => True

/-- The contract of a stage. -/
def Stage.terms (D : Ino → Prop) (ctx : Context) (s : Stage) (isLast : Bool) : Contract :=
  ⟨s.Request D ctx isLast, Call.Reliable D ctx⟩

/-! ## Streams -/

namespace Streams

/-- How the output file of a stage is opened. -/
def outputMode (base : Streams) : FileSystem.Mode :=
  if base.redirects.append then .append else .truncate

/-- The streams of a stage own all files that are held, and the output file is among them. -/
structure Holding (base streams : Streams) (held : List Opening) : Prop where
  setup : base.SameSetup streams
  owned : ∀ o ∈ held, o.handle ∈ streams.owned
  output : ∀ h, streams.stdout = some h →
    ∃ name, base.redirects.stdout = some name ∧ ⟨h, base.pathOf name, base.outputMode⟩ ∈ held

variable {base streams : Streams} {held : List Opening}

/-- What was set up, what is owned and the output file are not touched. -/
theorem Holding.update {streams' : Streams} (h : Holding base streams held) (hsetup : streams.SameSetup streams')
    (howned : streams'.owned = streams.owned) (hstdout : streams'.stdout = streams.stdout) :
    Holding base streams' held := by
  refine ⟨⟨?_, ?_, ?_⟩, ?_, ?_⟩
  · exact hsetup.directory.trans h.setup.directory
  · exact hsetup.redirects.trans h.setup.redirects
  · exact hsetup.toPipe.trans h.setup.toPipe
  · rw [howned]
    exact h.owned
  · rw [hstdout]
    exact h.output

theorem holding_ofStage (s : Stage) (directory : Path) (toPipe : Bool) :
    Holding (.ofStage s directory toPipe) (.ofStage s directory toPipe) [] :=
  ⟨.rfl, by simp, fun _ hstdout => by cases hstdout⟩

theorem ofStage_outputMode (s : Stage) (directory : Path) (toPipe : Bool) :
    (ofStage s directory toPipe).outputMode = if s.appends then .append else .truncate := by
  unfold outputMode ofStage Stage.appends
  cases s.redirects with
  | none => rfl
  | some r => rfl

section

variable (hbase : base = .ofStage s ctx.directory toPipe)

include hbase

/-- A file that the stage names is opened under its path, and owned. -/
theorem openOwned_tracked {name : String} {mode : FileSystem.Mode} (hname : s.Redirected name mode)
    (h : Holding base streams held) :
    tracked (s.terms D ctx isLast) (openOwned name mode) (fun result after held' =>
      Holding base after held' ∧ after.stdout = streams.stdout ∧
        ∀ h, result = .ok h → ⟨h, base.pathOf name, mode⟩ ∈ held') streams held := by
  have hpath : ((streams.directory.join (Path.ofString name)).normalize).toString = base.pathOf name := by
    rw [pathOf, h.setup.directory]
  have hresolve : base.pathOf name = (ctx.resolve (.ofString name)).toString := by
    rw [hbase]
    rfl
  have hfailed (fault : Fault) : Holding base streams held ∧ streams.stdout = streams.stdout ∧
      ∀ h, (.error fault : Except Fault Handle) = .ok h → ⟨h, base.pathOf name, mode⟩ ∈ held :=
    ⟨h, rfl, fun _ hok => by cases hok⟩
  have hown (handle : Handle) : tracked (s.terms D ctx isLast)
      (do set { streams with owned := handle :: streams.owned }; return handle) (fun result after held' =>
        Holding base after held' ∧ after.stdout = streams.stdout ∧
          ∀ h, result = .ok h → ⟨h, base.pathOf name, mode⟩ ∈ held') streams
      (⟨handle, base.pathOf name, mode⟩ :: held) := by
    refine tracked_set_bind.2 ((tracked_pure _).2 ⟨⟨?_, ?_, ?_⟩, rfl, ?_⟩)
    · exact ⟨h.setup.directory, h.setup.redirects, h.setup.toPipe⟩
    · intro o ho
      rcases List.mem_cons.1 ho with rfl | ho
      · exact List.mem_cons_self
      · exact List.mem_cons_of_mem _ (h.owned o ho)
    · intro h' hstdout
      obtain ⟨out, hout, hmem⟩ := h.output h' hstdout
      exact ⟨out, hout, List.mem_cons_of_mem _ hmem⟩
    · rintro h ⟨⟩
      exact List.mem_cons_self
  unfold openOwned
  rw [tracked_get_bind]
  dsimp only
  rw [hpath]
  split
  · rw [tracked_throw_bind]
    exact hfailed _
  refine tracked_call_bind (hresolve ▸ Stage.Request.look hname) fun reply _ => ?_
  split
  · rw [tracked_throw_bind]
    exact hfailed _
  refine tracked_call_bind (hresolve ▸ Stage.Request.openFile hname) fun reply _ => ?_
  cases reply with
  | error cause => exact (tracked_throw _).2 (hfailed _)
  | ok handle =>
    dsimp only
    split
    · refine tracked_call_bind (Stage.Request.seekEnd handle) fun reply _ => ?_
      cases reply with
      | ok done => exact hown handle
      | error cause =>
        refine tracked_call_bind (Stage.Request.close handle) fun reply _ => ?_
        rw [tracked_throw_bind]
        -- The file that is closed is the one that was opened last.
        have hclosed : List.eraseP (·.handle = handle) (⟨handle, base.pathOf name, mode⟩ :: held) = held :=
          List.eraseP_cons_of_pos (by simp)
        dsimp only [Call.holds]
        rw [hclosed]
        exact hfailed _
    · exact hown handle

theorem openOwned_heeds {name : String} {mode : FileSystem.Mode} (hname : s.Redirected name mode) :
    Heeds (s.terms D ctx isLast) (Holding base) (openOwned name mode) := by
  intro streams held h
  exact tracked_mono (fun _ _ _ hafter => hafter.1) (openOwned_tracked hbase hname h)

theorem stdinHandle_heeds : Heeds (s.terms D ctx isLast) (Holding base) stdinHandle := by
  refine heeds_get_bind fun streams held h => ?_
  split
  · exact heeds_pure _
  · exact heeds_pure _
  · rename_i name hredirects _
    have hname : s.stdin? = some name := by
      rw [← ofStage_stdin s ctx.directory toPipe, ← hbase, ← h.setup.redirects]
      exact hredirects
    refine heeds_bind (openOwned_heeds hbase (.input hname)) fun handle =>
      heeds_bind (heeds_modify ?_) fun _ => heeds_pure _
    exact fun streams held h => h.update ⟨rfl, rfl, rfl⟩ rfl rfl

/-- The output file is there if and only if the stage names one. -/
theorem stdoutHandle_tracked (h : Holding base streams held) :
    tracked (s.terms D ctx isLast) stdoutHandle (fun result after held' => Holding base after held' ∧
      (result = .ok none → s.stdout? = none) ∧ ∀ h, result = .ok (some h) → after.stdout = some h) streams held := by
  have hstdout : streams.redirects.stdout = s.stdout? := by
    rw [h.setup.redirects, hbase, ofStage_stdout]
  have hmode : base.outputMode = if s.appends then .append else .truncate := by
    rw [hbase, ofStage_outputMode]
  have hsetup : base.outputMode = if streams.redirects.append then .append else .truncate := by
    rw [outputMode, h.setup.redirects]
  unfold stdoutHandle
  rw [tracked_get_bind]
  split
  · rename_i hredirects
    refine (tracked_pure _).2 ⟨h, fun _ => hstdout ▸ hredirects, fun _ hok => by cases hok⟩
  · rename_i handle _ hopened
    refine (tracked_pure _).2 ⟨h, fun hok => (by cases hok), ?_⟩
    rintro _ ⟨⟩
    exact hopened
  · rename_i name hredirects hnone
    have hname : s.stdout? = some name := by
      rw [← hstdout]
      exact hredirects
    rw [← hsetup]
    refine tracked_bind (openOwned_tracked hbase (hmode ▸ .output hname) h) ?_ ?_
    · rintro handle after held' ⟨hholding, -, hopened⟩
      refine tracked_modify_bind.2 ((tracked_pure _).2 ⟨⟨?_, hholding.owned, ?_⟩, fun hok => (by cases hok), ?_⟩)
      · exact ⟨hholding.setup.directory, hholding.setup.redirects, hholding.setup.toPipe⟩
      · rintro _ ⟨⟩
        refine ⟨name, ?_, hopened handle rfl⟩
        rw [← h.setup.redirects]
        exact hredirects
      · rintro _ ⟨⟩
        rfl
    · rintro fault after held' ⟨hholding, -, -⟩
      exact ⟨hholding, fun hok => (by cases hok), fun _ hok => by cases hok⟩

end

/-! ### Writing -/

theorem writeNow_heeds {sink : Sink} (hsink : ∀ data, s.Request D ctx isLast (.write sink data)) (data : Bytes) :
    Heeds (s.terms D ctx isLast) (Holding base) (writeNow sink data) := by
  refine heeds_call_bind (hsink data) (fun _ _ => rfl) fun reply _ => ?_
  split
  · exact heeds_pure _
  · exact heeds_throw _
  · exact heeds_throw _

theorem writeFile_heeds (h : Handle) (data : Bytes) :
    Heeds (s.terms D ctx isLast) (Holding base) (writeFile h data) := by
  have hwrite (data : Bytes) : Heeds (s.terms D ctx isLast) (Holding base) (writeNow (.file h) data) :=
    writeNow_heeds (.toFile h) data
  have hset (data : Bytes) : Heeds (s.terms D ctx isLast) (Holding base) (setUnwritten h data) :=
    heeds_modify fun _ _ hholding => hholding.update ⟨rfl, rfl, rfl⟩ rfl rfl
  refine heeds_bind (hwrite _) fun _ => heeds_get_bind fun streams held _ => ?_
  dsimp only
  split
  · exact heeds_bind (hset _) fun _ => heeds_bind (hwrite _) fun _ => hset _
  · exact heeds_bind (hwrite _) fun _ => heeds_bind (hset _) fun _ => hwrite _

theorem writeTo_heeds {sink : Sink} (hsink : ∀ data, s.Request D ctx isLast (.write sink data)) (data : Bytes) :
    Heeds (s.terms D ctx isLast) (Holding base) (writeTo sink data) := by
  unfold writeTo
  split
  · exact writeFile_heeds _ _
  · exact writeNow_heeds hsink _

section

variable (hbase : base = .ofStage s ctx.directory toPipe)

include hbase

/-- Without a file, output goes to the pipe, and that of the last stage to the console. -/
theorem write_heeds (htoPipe : toPipe = !isLast) (data : Bytes) :
    Heeds (s.terms D ctx isLast) (Holding base) (write data) := by
  intro streams held h
  refine tracked_bind (stdoutHandle_tracked hbase h) ?_ (fun _ _ _ hafter => hafter.1)
  rintro (_ | handle) after held' ⟨hholding, hnone, -⟩
  · rw [tracked_get_bind]
    refine writeTo_heeds (fun data => ?_) _ _ _ hholding
    have hfile := hnone rfl
    have hpipe : after.toPipe = !isLast := by
      rw [hholding.setup.toPipe, hbase, ← htoPipe]
      rfl
    cases isLast with
    | true =>
      rw [hpipe]
      exact .toOut rfl hfile data
    | false =>
      rw [hpipe]
      exact .toPipe rfl hfile data
  · exact writeTo_heeds (.toFile handle) _ _ _ hholding

theorem stderrHandle_heeds : Heeds (s.terms D ctx isLast) (Holding base) stderrHandle := by
  refine heeds_get_bind fun streams held h => ?_
  split
  · exact heeds_pure _
  rename_i name hredirects
  split
  · exact heeds_pure _
  split
  · exact heeds_pure _
  have hname : s.stderr? = some name := by
    rw [← ofStage_stderr s ctx.directory toPipe, ← hbase, ← h.setup.redirects]
    exact hredirects
  refine heeds_bind (heeds_attempt (openOwned_heeds hbase (.errors hname))) fun result => ?_
  cases result with
  | ok handle =>
    refine heeds_bind (heeds_modify ?_) fun _ => heeds_pure _
    exact fun _ _ hholding => hholding.update ⟨rfl, rfl, rfl⟩ rfl rfl
  | error fault =>
    refine heeds_bind (heeds_modify ?_) fun _ => heeds_bind (writeTo_heeds .toErr _) fun _ => heeds_pure _
    exact fun _ _ hholding => hholding.update ⟨rfl, rfl, rfl⟩ rfl rfl

theorem error_heeds (text : String) : Heeds (s.terms D ctx isLast) (Holding base) (Streams.error text) := by
  refine heeds_bind (stderrHandle_heeds hbase) fun handle => ?_
  cases handle with
  | some h => exact writeTo_heeds (.toFile h) _
  | none => exact writeTo_heeds .toErr _

theorem errorThen_heeds {α : Type} (text : String) (a : α) :
    Heeds (s.terms D ctx isLast) (Holding base) (do Streams.error text; return a) :=
  heeds_bind (error_heeds hbase text) fun _ => heeds_pure a

end

/-- Without a file for it, a diagnostic is told on the console. -/
theorem errorThen_tracked {α : Type} (hstderr : streams.redirects.stderr = none) (text : String) (a : α) :
    tracked (s.terms D ctx isLast) (do Streams.error text; return a) (fun result _ _ => result = .ok a) streams
      held := by
  have herror : tracked (s.terms D ctx isLast) (Streams.error text) (fun result _ _ => result = .ok ()) streams
      held := by
    unfold Streams.error stderrHandle
    rw [bind_assoc, tracked_get_bind, hstderr]
    refine tracked_call_bind (Stage.Request.toErr _) fun reply hreply => ?_
    rw [show reply = .ok () from hreply]
    exact (tracked_pure _).2 rfl
  refine tracked_bind herror (fun _ _ _ _ => (tracked_pure a).2 rfl) fun fault _ _ hfault => by cases hfault

end Streams

/-! ## Built-in commands -/

/-- What the end of a built-in command counts for in a pipeline. -/
def BuiltinEnd.code : BuiltinEnd → Nat
  | .status code => code
  | .exitRequest code => code

namespace Builtin

open Streams

variable {base : Streams}

theorem kindOf?_heeds {path : Path} (hpath : s.Operand ctx path) :
    Heeds (s.terms D ctx isLast) (Holding base) (kindOf? path) := by
  unfold kindOf?
  split
  · exact heeds_pure _
  refine heeds_call_bind (Stage.Request.operand hpath) (fun _ _ => rfl) fun reply _ => ?_
  cases reply with
  | ok kind => exact heeds_pure _
  | error cause =>
    dsimp only
    split
    · exact heeds_pure _
    · exact heeds_throw _

section

variable (hbase : base = .ofStage s ctx.directory (!isLast))

include hbase

theorem runExit_heeds (args : List String) : Heeds (s.terms D ctx isLast) (Holding base) (runExit args) := by
  unfold runExit
  split
  · exact heeds_pure _
  · split
    · exact heeds_pure _
    · exact errorThen_heeds hbase _ _
  · exact errorThen_heeds hbase _ _

theorem runEcho_heeds (args : List String) : Heeds (s.terms D ctx isLast) (Holding base) (runEcho args) :=
  heeds_bind (write_heeds hbase rfl _) fun _ => heeds_pure _

theorem typeOne_heeds (htype : s.executable = "type") {name : String} (hname : name ∈ s.args) :
    Heeds (s.terms D ctx isLast) (Holding base) (typeOne ctx name) := by
  have hoperand : s.Operand ctx (ctx.resolve (.ofString name)) := .type htype hname
  refine heeds_bind (kindOf?_heeds hoperand) fun kind => ?_
  split
  · exact errorThen_heeds hbase _ _
  · exact errorThen_heeds hbase _ _
  · refine heeds_call_bind (Stage.Request.copy htype hoperand) (fun _ _ => rfl) fun reply _ => ?_
    cases reply with
    | error cause => exact errorThen_heeds hbase _ _
    | ok data => exact heeds_bind (write_heeds hbase rfl _) fun _ => heeds_pure _

theorem typeAll_heeds (htype : s.executable = "type") {names : List String} (hnames : ∀ name ∈ names, name ∈ s.args) :
    Heeds (s.terms D ctx isLast) (Holding base) (typeAll ctx names) := by
  induction names with
  | nil => exact heeds_pure _
  | cons name rest ih =>
    have hrest := ih fun name hname => hnames name (List.mem_cons_of_mem _ hname)
    exact heeds_bind (typeOne_heeds hbase htype (hnames name List.mem_cons_self)) fun _ =>
      heeds_bind hrest fun _ => heeds_pure _

theorem moveTo_heeds (hcd : s.executable = "cd") {target : String}
    (htarget : s.args = [] ∧ target = "~" ∨ s.args = [target]) :
    Heeds (s.terms D ctx isLast) (Holding base) (moveTo ctx target) := by
  refine heeds_bind (kindOf?_heeds (.cd hcd htarget)) fun kind => ?_
  split
  · exact errorThen_heeds hbase _ _
  · exact heeds_pure _
  · exact errorThen_heeds hbase _ _

theorem body_heeds {b : Builtin} (hb : s.executable = b.name) :
    Heeds (s.terms D ctx isLast) (Holding base) (body b s.args ctx) := by
  cases b with
  | exit => exact heeds_bind (runExit_heeds hbase s.args) fun _ => heeds_pure _
  | echo => exact heeds_bind (runEcho_heeds hbase s.args) fun _ => heeds_pure _
  | type =>
    refine heeds_bind ?_ fun _ => heeds_pure _
    unfold runType
    split
    · exact errorThen_heeds hbase _ _
    · exact heeds_bind (typeAll_heeds hbase hb fun _ hname => hname) fun _ => heeds_pure _
  | cd =>
    show Heeds _ _ (runCd ctx s.args)
    unfold runCd
    split
    · exact moveTo_heeds hbase hb (.inl ⟨‹_›, rfl⟩)
    · exact moveTo_heeds hbase hb (.inr ‹_›)
    · exact errorThen_heeds hbase _ _

theorem run_heeds {b : Builtin} (hb : s.executable = b.name) :
    Heeds (s.terms D ctx isLast) (Holding base) (run b s.args ctx) := by
  refine heeds_bind (heeds_attempt (stdinHandle_heeds hbase)) fun input => ?_
  cases input with
  | error fault => exact heeds_get_bind fun streams held _ => errorThen_heeds hbase _ _
  | ok handle =>
    refine heeds_bind (heeds_attempt (body_heeds hbase hb)) fun result => ?_
    split
    · exact heeds_pure _
    · exact heeds_pure _
    · exact errorThen_heeds hbase _ _

end

/-! ### exit -/

/-- The code that `exit` asks for, or the status that it has instead. -/
def exitCodeOf : List String → Nat
  | [] => success
  | [arg] => ((integer? arg).map exitCode).getD usage
  | _ => failure

/-- `exit` has nothing to complain about. -/
def ExitsQuietly (args : List String) : Prop :=
  args = [] ∨ ∃ arg n, args = [arg] ∧ integer? arg = some n

variable {streams : Streams} {held : List Opening} {args : List String}

theorem runExit_tracked (h : streams.redirects.stderr = none ∨ ExitsQuietly args) :
    tracked (s.terms D ctx isLast) (runExit args) (fun result _ _ =>
      ∃ ending, result = .ok ending ∧ ending.code = exitCodeOf args) streams held := by
  have htold (hnot : ¬ ExitsQuietly args) (text : String) (ending : BuiltinEnd)
      (hcode : ending.code = exitCodeOf args) :
      tracked (s.terms D ctx isLast) (do Streams.error text; return ending) (fun result _ _ =>
        ∃ ending, result = .ok ending ∧ ending.code = exitCodeOf args) streams held :=
    tracked_mono (fun _ _ _ hok => ⟨ending, hok, hcode⟩) (errorThen_tracked (h.resolve_right hnot) text ending)
  unfold runExit
  split
  · exact (tracked_pure _).2 ⟨_, rfl, rfl⟩
  · rename_i arg
    split
    · rename_i n hn
      exact (tracked_pure _).2 ⟨_, rfl, by simp [BuiltinEnd.code, exitCodeOf, hn]⟩
    · rename_i hnone
      refine htold ?_ _ _ (by simp [BuiltinEnd.code, exitCodeOf, hnone])
      rintro (hnil | ⟨arg', n, harg, hn⟩)
      · cases hnil
      · cases harg
        rw [hnone] at hn
        cases hn
  · rename_i hnil hone
    refine htold ?_ _ _ ?_
    · rintro (rfl | ⟨arg, n, rfl, -⟩)
      · exact hnil rfl
      · exact hone arg rfl
    · unfold exitCodeOf
      split
      · exact absurd rfl hnil
      · exact absurd rfl (hone _)
      · rfl

/-- Without an input file, and if a diagnostic goes to the console, `exit` comes to its code. -/
theorem exit_tracked (hstdin : streams.redirects.stdin = none)
    (h : streams.redirects.stderr = none ∨ ExitsQuietly args) :
    tracked (s.terms D ctx isLast) (run .exit args ctx) (fun result _ _ =>
      ∃ ending, result = .ok (ending, ctx) ∧ ending.code = exitCodeOf args) streams held := by
  have hinput : tracked (s.terms D ctx isLast) stdinHandle (fun result after held' =>
      result = .ok none ∧ after = streams ∧ held' = held) streams held := by
    unfold stdinHandle
    rw [tracked_get_bind, hstdin]
    exact (tracked_pure _).2 ⟨rfl, rfl, rfl⟩
  refine tracked_attempt_bind hinput ?_
  rintro _ streams held ⟨rfl, rfl, rfl⟩
  have hbody : tracked (s.terms D ctx isLast) (body .exit args ctx) (fun result _ _ =>
      ∃ ending, result = .ok (ending, ctx) ∧ ending.code = exitCodeOf args) streams held := by
    refine tracked_bind (runExit_tracked h) ?_ ?_
    · rintro ending after held' ⟨_, ⟨⟩, hcode⟩
      exact (tracked_pure _).2 ⟨ending, rfl, hcode⟩
    · rintro fault after held' ⟨_, ⟨⟩, -⟩
  refine tracked_attempt_bind hbody ?_
  rintro _ after held' ⟨ending, rfl, hcode⟩
  exact (tracked_pure _).2 ⟨ending, rfl, hcode⟩

end Builtin

/-! ## Lookup and launch -/

namespace Lookup

open Job

theorem isExecutable_heeds {path : Path} (hpath : path ∈ candidates ctx s.executable) :
    (isExecutable path).Heeds (s.terms D ctx isLast) fun _ => True := by
  unfold isExecutable
  split
  · exact heeds_pure trivial
  refine heeds_call_bind (Stage.Request.lookUp hpath) (fun _ _ => rfl) fun reply _ => ?_
  cases reply with
  | ok kind => exact heeds_pure trivial
  | error cause => exact heeds_pure trivial

theorem firstExecutable_heeds {paths : List Path} (hpaths : ∀ path ∈ paths, path ∈ candidates ctx s.executable) :
    (firstExecutable paths).Heeds (s.terms D ctx isLast) fun found =>
      ∀ path, found = some path → path ∈ candidates ctx s.executable := by
  induction paths with
  | nil => exact heeds_pure fun _ hfound => by cases hfound
  | cons path rest ih =>
    have hpath := hpaths path List.mem_cons_self
    refine heeds_bind (isExecutable_heeds hpath) fun found _ => ?_
    cases found with
    | true =>
      refine heeds_pure ?_
      rintro _ ⟨⟩
      exact hpath
    | false => exact ih fun path hmem => hpaths path (List.mem_cons_of_mem _ hmem)

/-- What an executable means: the built-in command of this name, or one of the candidates. -/
structure Meant (ctx : Context) (name : String) (resolution : Resolution) : Prop where
  builtin : ∀ b, resolution = .builtin b ↔ Builtin.ofName? name = some b
  external : ∀ path, resolution = .external path → path ∈ candidates ctx name

theorem find_heeds : (find ctx s.executable).Heeds (s.terms D ctx isLast) (Meant ctx s.executable) := by
  unfold find
  split
  · rename_i b hname
    exact heeds_pure ⟨fun _ => by simp [hname], fun _ hpath => by cases hpath⟩
  · rename_i hname
    refine heeds_bind (firstExecutable_heeds fun _ hpath => hpath) fun found hfound => ?_
    cases found with
    | none => exact heeds_pure ⟨fun _ => by simp [hname], fun _ hpath => by cases hpath⟩
    | some path =>
      refine heeds_pure ⟨fun _ => by simp [hname], ?_⟩
      rintro _ ⟨⟩
      exact hfound path rfl

end Lookup

/-- A job is an installed program that was started in a directory and has its output in a certain place. -/
def RunsIn (programs : Programs) (D : Ino → Prop) (stdout : Sink) (job : Job Ending) : Prop :=
  ∃ name program call, programs name = some program ∧ D call.directory ∧ call.stdout = stdout ∧ job = program call

section Launch

open Job

theorem loadImage_heeds {base : Ino} (hbase : D base) (depth : Nat) {path : Raw}
    (hpath : s.Image ctx (Raw.decode path)) :
    (loadImage base depth path).Heeds (s.terms D ctx isLast) fun _ => True := by
  induction depth using Nat.strongRecOn generalizing path with
  | ind depth ih =>
    rw [loadImage.eq_def]
    refine heeds_call_bind (Stage.Request.image hbase hpath) (fun _ _ => rfl) fun reply _ => ?_
    split
    · exact heeds_pure trivial
    · exact heeds_pure trivial
    · refine heeds_call_bind (Stage.Request.script hbase hpath) (fun _ _ => rfl) fun reply _ => ?_
      split
      · exact heeds_pure trivial
      split
      · exact heeds_pure trivial
      rename_i line hline
      have hinterpreter : s.Image ctx (Raw.decode line.interpreter) := .interpreter hline
      cases depth with
      | zero =>
        refine heeds_call_bind (Stage.Request.image hbase hinterpreter) (fun _ _ => rfl) fun reply _ => ?_
        split
        · exact heeds_pure trivial
        · exact heeds_pure trivial
      | succ depth =>
        refine heeds_bind (ih depth (Nat.lt_succ_self depth) hinterpreter) fun image _ => ?_
        split
        · exact heeds_pure trivial
        · exact heeds_pure trivial
    · exact heeds_pure trivial

theorem startFile_heeds {path : Raw} {call : Invocation} (hbase : D call.directory)
    (hpath : s.Image ctx (Raw.decode path)) :
    (startFile programs path call).Heeds (s.terms D ctx isLast) fun result =>
      ∀ job, result = .ok job → RunsIn programs D call.stdout job := by
  unfold startFile
  split
  · exact heeds_pure fun _ hok => by cases hok
  refine heeds_bind (loadImage_heeds hbase _ hpath) fun image _ => ?_
  split
  · exact heeds_pure fun _ hok => by cases hok
  split
  · exact heeds_pure fun _ hok => by cases hok
  · rename_i image _ program hprogram
    refine heeds_pure ?_
    rintro job ⟨⟩
    refine ⟨image.program, program, _, hprogram, ?_, ?_, rfl⟩
    · exact hbase
    · rfl

namespace Launch

theorem child_heeds {path : Path} (hpath : path ∈ Lookup.candidates ctx s.executable) (stdin : Source)
    (stdout stderr : Sink) :
    (child programs ctx s path stdin stdout stderr).Heeds (s.terms D ctx isLast) fun result =>
      ∀ job, result = .ok job → RunsIn programs D stdout job := by
  unfold child
  split
  · exact heeds_pure fun _ hok => by cases hok
  refine heeds_call_bind Stage.Request.enter (fun _ _ => rfl) fun reply hreply => ?_
  cases reply with
  | error e => exact heeds_pure fun _ hok => by cases hok
  | ok directory =>
    refine heeds_call_bind Stage.Request.environment (fun _ _ => rfl) fun environment _ => ?_
    refine heeds_bind (startFile_heeds (hreply rfl rfl) (.file hpath)) fun result hresult => ?_
    cases result with
    | error e => exact heeds_pure fun _ hok => by cases hok
    | ok job =>
      refine heeds_pure ?_
      rintro _ ⟨⟩
      exact hresult job rfl

end Launch

end Launch

/-- A process was started for a stage, with its output in the stage's file, or else where it is told to. -/
structure Stage.Spawned (programs : Programs) (D : Ino → Prop) (ctx : Context) (s : Stage) (stdout : Sink)
    (job : Job Ending) (held : List Opening) : Prop where
  runs : ∃ output, RunsIn programs D output job ∧ (s.stdout? = none → output = stdout) ∧
    ∀ name, s.stdout? = some name → ∃ h, output = .file h ∧
      ⟨h, (ctx.resolve (.ofString name)).toString, if s.appends then .append else .truncate⟩ ∈ held

namespace Launch

open Streams

variable {base streams : Streams} {held : List Opening}

theorem launch_tracked (hbase : base = .ofStage s ctx.directory toPipe) {path : Path}
    (hpath : path ∈ Lookup.candidates ctx s.executable) (stdin : Source) (stdout : Sink)
    (h : Holding base streams held) :
    tracked (s.terms D ctx isLast) (launch programs ctx s path stdin stdout) (fun result after held' =>
      Holding base after held' ∧ ∀ job, result = .ok (.ok job) → s.Spawned programs D ctx stdout job held')
      streams held := by
  refine tracked_bind (stderrHandle_heeds hbase streams held h) ?_ fun _ _ _ hholding =>
    ⟨hholding, fun _ hok => by cases hok⟩
  intro errors streams₁ held₁ h₁
  refine tracked_attempt_bind (stdinHandle_heeds hbase streams₁ held₁ h₁) ?_
  rintro (fault | input) streams₂ held₂ h₂
  · exact (tracked_pure _).2 ⟨h₂, fun _ hok => by cases hok⟩
  refine tracked_attempt_bind (stdoutHandle_tracked hbase h₂) ?_
  rintro (fault | output) streams₃ held₃ ⟨h₃, hnone, hsome⟩
  · exact (tracked_pure _).2 ⟨h₃, fun _ hok => by cases hok⟩
  -- The child opens nothing, so that what is held is the same when it is there.
  refine tracked_bind (R := fun result after held' => after = streams₃ ∧ held' = held₃ ∧
    ∀ job, result = .ok (.ok job) → RunsIn programs D ((output.map Sink.file).getD stdout) job)
    (tracked_liftM (Job.tracked_mono ?_ (child_heeds hpath _ _ _ held₃))) ?_ ?_
  · rintro result _ ⟨hruns, rfl⟩
    refine ⟨rfl, rfl, ?_⟩
    rintro job ⟨⟩
    exact hruns job rfl
  · rintro (fault | job) _ _ ⟨rfl, rfl, hruns⟩
    · exact (tracked_pure _).2 ⟨h₃, fun _ hok => by cases hok⟩
    refine (tracked_pure _).2 ⟨h₃, ?_⟩
    rintro _ ⟨⟩
    refine ⟨⟨_, hruns job rfl, ?_, ?_⟩⟩
    · intro hfile
      cases output with
      | none => rfl
      | some handle =>
        obtain ⟨name, hname, -⟩ := h₃.output handle (hsome handle rfl)
        rw [hbase, ofStage_stdout, hfile] at hname
        cases hname
    · intro name hname
      cases output with
      | none =>
        rw [hnone rfl] at hname
        cases hname
      | some handle =>
        obtain ⟨name', hname', hmem⟩ := h₃.output handle (hsome handle rfl)
        rw [hbase, ofStage_stdout, hname] at hname'
        cases hname'
        rw [hbase, ofStage_outputMode] at hmem
        exact ⟨handle, rfl, hmem⟩
  · rintro fault _ _ ⟨rfl, rfl, -⟩
    exact ⟨h₃, fun _ hok => by cases hok⟩

end Launch

/-! ## Stages of a pipeline -/

/-- What a stage of a pipeline is when it was started, and the files that are held for it. -/
inductive Stage.Begun (programs : Programs) (D : Ino → Prop) (ctx : Context) (s : Stage) (isLast : Bool) :
    Started → List Opening → Prop
  | fault (fault : Fault) (owned : List Handle) (held : List Opening) :
    Begun programs D ctx s isLast (.error (fault, owned)) held
  | builtin {b : Builtin} {m : Member} (hb : s.executable = b.name) (hrole : m.role = .builtin)
      (htask : m.task = .running (Network.builtinJob b s ctx isLast)) :
    Begun programs D ctx s isLast (.ok m) []
  | absent (status : Nat) {owned : List Handle} {held : List Opening} (hnot : Builtin.ofName? s.executable = none)
      (howned : ∀ o ∈ held, o.handle ∈ owned) :
    Begun programs D ctx s isLast (.ok (Network.absent status owned)) held
  | process {m : Member} {job : Job Ending} {owned : List Handle} {held : List Opening}
      (hnot : Builtin.ofName? s.executable = none) (hrole : m.role = .process)
      (htask : m.task = .running (Network.programJob job owned)) (howned : ∀ o ∈ held, o.handle ∈ owned)
      (hspawned : s.Spawned programs D ctx (if isLast then .out else .pipe) job held) :
    Begun programs D ctx s isLast (.ok m) held

/-- What a built-in stage comes to: it owns the files that it holds, and `exit` comes to its code as a status. -/
structure Stage.Concluded (s : Stage) (e : StageEnd) (held : List Opening) : Prop where
  owned : ∀ o ∈ held, o.handle ∈ e.owned
  exit : s.executable = "exit" → s.stdin? = none → s.stderr? = none ∨ Builtin.ExitsQuietly s.args →
    e.result = .ok (Builtin.exitCodeOf s.args)

namespace Network

open Streams

theorem launchStage_tracked {base streams : Streams} {held : List Opening}
    (hbase : base = .ofStage s ctx.directory toPipe) {path : Path}
    (hpath : path ∈ Lookup.candidates ctx s.executable) (h : Holding base streams held) :
    tracked (s.terms D ctx isLast) (launchStage programs ctx isLast s path) (fun result after held' =>
      Holding base after held' ∧ ∀ job, result = .ok (.ok job) →
        s.Spawned programs D ctx (if isLast then .out else .pipe) job held') streams held := by
  refine tracked_bind (Launch.launch_tracked hbase hpath _ _ h) ?_ fun _ _ _ hafter =>
    ⟨hafter.1, fun _ hok => by cases hok⟩
  rintro (e | job) after held' ⟨hholding, hspawned⟩
  · refine tracked_bind (error_heeds hbase e.message _ _ hholding) ?_ fun _ _ _ htold =>
      ⟨htold, fun _ hok => by cases hok⟩
    intro _ after held' htold
    exact (tracked_pure _).2 ⟨htold, fun _ hok => by cases hok⟩
  · refine (tracked_pure _).2 ⟨hholding, ?_⟩
    rintro _ ⟨⟩
    exact hspawned job rfl

/-- Starting a stage makes only calls of its contract, and what it has opened is handed on. -/
theorem startStage_tracked (isFirst : Bool) (inputSize outputSize : Nat) :
    (startStage programs ctx isFirst isLast inputSize outputSize s).tracked (s.terms D ctx isLast)
      (s.Begun programs D ctx isLast) [] := by
  unfold startStage
  rw [Job.tracked_bind]
  refine Job.tracked_mono ?_ (Lookup.find_heeds [])
  rintro resolution _ ⟨hmeant, rfl⟩
  have hstreams := holding_ofStage s ctx.directory false
  have hnot (h : ∀ b, resolution ≠ .builtin b) : Builtin.ofName? s.executable = none := by
    cases hname : Builtin.ofName? s.executable with
    | none => rfl
    | some b => exact absurd ((hmeant.builtin b).2 hname) (h b)
  cases resolution with
  | builtin b =>
    rw [Job.tracked_pure]
    exact .builtin (Builtin.name_of_ofName? ((hmeant.builtin b).1 rfl)) rfl rfl
  | notFound =>
    dsimp only
    rw [Job.tracked_bind]
    refine Job.tracked_mono ?_ (error_heeds rfl (Launch.notFoundLine s) _ _ hstreams)
    rintro ⟨result, streams⟩ held hholding
    cases result with
    | error fault => exact (Job.tracked_pure _).2 (.fault fault _ _)
    | ok done => exact (Job.tracked_pure _).2 (.absent _ (hnot fun _ => Resolution.noConfusion) hholding.owned)
  | external path =>
    dsimp only
    rw [Job.tracked_bind]
    refine Job.tracked_mono ?_ (launchStage_tracked rfl (hmeant.external path rfl) hstreams)
    rintro ⟨result, streams⟩ held ⟨hholding, hspawned⟩
    cases result with
    | error fault => exact (Job.tracked_pure _).2 (.fault fault _ _)
    | ok launched =>
      cases launched with
      | error status =>
        exact (Job.tracked_pure _).2 (.absent status (hnot fun _ => Resolution.noConfusion) hholding.owned)
      | ok job =>
        exact (Job.tracked_pure _).2
          (.process (hnot fun _ => Resolution.noConfusion) rfl rfl hholding.owned (hspawned job rfl))

/-- A built-in stage makes only calls of its contract, and what it comes to is in order. -/
theorem builtinJob_tracked {b : Builtin} (hb : s.executable = b.name) :
    (builtinJob b s ctx isLast).tracked (s.terms D ctx isLast) s.Concluded [] := by
  have howned : (builtinJob b s ctx isLast).tracked (s.terms D ctx isLast)
      (fun e held => ∀ o ∈ held, o.handle ∈ e.owned) [] := by
    refine (Job.tracked_bind _ _).2
      (Job.tracked_mono ?_ (Builtin.run_heeds rfl hb _ _ (holding_ofStage s ctx.directory (!isLast))))
    rintro ⟨result, streams⟩ held hholding
    rcases result with fault | ⟨code | code, after⟩
    · exact (Job.tracked_pure _).2 hholding.owned
    · exact (Job.tracked_pure _).2 hholding.owned
    · exact (Job.tracked_pure _).2 hholding.owned
  by_cases hexit : s.executable = "exit" ∧ s.stdin? = none ∧ (s.stderr? = none ∨ Builtin.ExitsQuietly s.args)
  · obtain ⟨hname, hstdin, htold⟩ := hexit
    have hcode : (builtinJob b s ctx isLast).tracked (s.terms D ctx isLast)
        (fun e _ => e.result = .ok (Builtin.exitCodeOf s.args)) [] := by
      obtain rfl : b = .exit := by
        rw [hname] at hb
        revert hb
        cases b <;> decide
      have hran : tracked (s.terms D ctx isLast) (Builtin.run .exit s.args ctx) (fun result _ _ =>
          ∃ ending, result = .ok (ending, ctx) ∧ ending.code = Builtin.exitCodeOf s.args)
          (.ofStage s ctx.directory (!isLast)) [] :=
        Builtin.exit_tracked (by simpa using hstdin) (by simpa using htold)
      refine (Job.tracked_bind _ _).2 (Job.tracked_mono ?_ hran)
      rintro ⟨result, streams⟩ held ⟨ending, hok, hcode⟩
      dsimp only at hok
      subst hok
      cases ending with
      | status code => exact (Job.tracked_pure _).2 (congrArg Except.ok hcode)
      | exitRequest code => exact (Job.tracked_pure _).2 (congrArg Except.ok hcode)
    refine Job.tracked_mono ?_ (Job.tracked_and howned hcode)
    exact fun e held h => ⟨h.1, fun _ _ _ => h.2⟩
  · refine Job.tracked_mono ?_ howned
    exact fun e held h => ⟨h, fun hname hstdin htold => absurd ⟨hname, hstdin, htold⟩ hexit⟩

end Network

end Conch
