-- SUMMARY: The only faults that come out of a stage: its own file for diagnostics refuses a diagnostic.
import Conch.Proofs.Pipeline.Company
import Conch.Proofs.Pipeline.Starting

/-!
# Diagnostics

Every fault that a stage meets ends as a diagnostic, except one: when the file for
diagnostics itself refuses the diagnostic there is nowhere left to tell it, and
the fault comes out. Files that refuse what they are given are devices: one
without room, and one that cannot be written. The file may also have been closed,
but only where files are shared with others.

The file for diagnostics is opened when the first diagnostic is to be written, so
what its name leads to is a matter of that moment. `Streams.Ready` keeps track of
the file while the stage and others are at work, and each function of a stage is
shown to come to no fault but a `Streams.Silenced` one.
-/

namespace Conch

/-! ## Refusals -/

/-- The fault that a device meets bytes with, if it takes none. -/
def Device.refusal? : Device → Option Fault
  | .full => some (.system .noSpace none)
  | .faulty => some (.system .inputOutput none)
  | _ => none

/-- A path leads to a device that takes no bytes, and meets them with a fault. -/
def World.Refuses (w : World) (path : String) (fault : Fault) : Prop :=
  ∃ i d, w.files.locate FileSystem.root path { followLast := true, creating := true } = .ok (.found i) ∧
    w.files.node? i = some (.device d) ∧ d.refusal? = some fault

/-- A file was opened under a path at some moment after the start, and has a number. -/
inductive World.Opened (shared : Prop) (start : World) (path : String) (mode : FileSystem.Mode) (h : Handle)
    (w : World) : Prop
  | intro (moment : World) (files : FileSystem) (f : OpenFile) (hstart : start.Later shared moment)
      (hlater : moment.Later shared w)
      (hopen : moment.files.openNode FileSystem.root path mode = .ok (files, f.node))
      (hfile : w.opened[h]? = some f) (hmode : f.mode = mode) (hisOpen : shared ∨ f.isOpen = true)

namespace World

variable {shared : Prop} {start w w' : World} {path : String} {mode : FileSystem.Mode} {h : Handle}

theorem Opened.later (hopened : Opened shared start path mode h w) (hlater : w.Later shared w') :
    Opened shared start path mode h w' := by
  obtain ⟨moment, files, f, hstart, hmoment, hopen, hfile, hmode, hisOpen⟩ := hopened
  obtain ⟨f', hfile', hstays⟩ := hlater.opened h f hfile
  rw [← hstays.node] at hopen
  exact ⟨moment, files, f', hstart, hmoment.trans hlater, hopen, hfile', hstays.mode.trans hmode,
    hisOpen.elim .inl hstays.isOpen⟩

theorem opened_of_openPath (hstart : start.Later shared w)
    (hopen : (.ok h, w') = w.openPath FileSystem.root path mode) : Opened shared start path mode h w' := by
  unfold openPath at hopen
  split at hopen
  · cases hopen
  · rename_i files node hnode
    obtain ⟨hh, rfl⟩ := Prod.mk.inj hopen
    cases hh
    refine ⟨w, files, _, hstart, ?_, hnode, Array.getElem?_push_size, rfl, .inr rfl⟩
    exact (later_of_files (FileSystem.openNode_later hnode)).trans (later_push _)

/-- A path that is opened as a device leads to it. -/
theorem locate_of_openNode {fs fs' : FileSystem} {i : Ino} {d : Device}
    (hopen : fs.openNode FileSystem.root path .truncate = .ok (fs', i)) (hd : fs.node? i = some (.device d)) :
    fs.locate FileSystem.root path { followLast := true, creating := true } = .ok (.found i) := by
  unfold FileSystem.openNode at hopen
  split at hopen
  · cases hopen
  · cases hopen
    have hbound := FileSystem.lt_size_of_node? hd
    exact absurd hbound (Nat.lt_irrefl _)
  · rename_i j hlocate
    have hj : j = i := by
      repeat' split at hopen
      all_goals cases hopen
      all_goals rfl
    rw [← hj]
    exact hlocate

/-- How a file that was opened to be written, and emptied, can refuse bytes. -/
theorem Opened.refusal (hopened : Opened shared start path .truncate h w) {data : Bytes} {cause : Errno}
    (hwrite : (w.write (.file h) data).1 = .error cause) :
    (shared ∧ cause = .badDescriptor) ∨
      cause ≠ .badDescriptor ∧
        ∃ moment, start.Later shared moment ∧ moment.Later shared w ∧ moment.Refuses path (.system cause none) := by
  obtain ⟨moment, files, f, hstart, hmoment, hopen, hfile, hmode, hisOpen⟩ := hopened
  have hrefuses (d : Device) (hd : w.files.node? f.node = some (.device d))
      (hcause : d.refusal? = some (.system cause none)) :
      ∃ moment, start.Later shared moment ∧ moment.Later shared w ∧ moment.Refuses path (.system cause none) := by
    have hd' := (hmoment.files.device_iff f.node d).1 hd
    exact ⟨moment, hstart, hmoment, f.node, d, locate_of_openNode hopen hd', hd', hcause⟩
  cases hclosed : f.isOpen with
  | false =>
    have hnone : w.openFile? h = none := by
      simp [openFile?, hfile, hclosed]
    simp only [write, hnone] at hwrite
    cases hwrite
    exact .inl ⟨hisOpen.resolve_right (by simp [hclosed]), rfl⟩
  | true =>
    have hsome : w.openFile? h = some f := by
      simp [openFile?, hfile, hclosed]
    simp only [write, hsome, writeFile, hmode] at hwrite
    split at hwrite
    · rename_i hread
      cases hread
    split at hwrite
    · cases hwrite
    split at hwrite
    · cases hwrite
    · cases hwrite
      exact .inr ⟨by decide, hrefuses .full ‹_› rfl⟩
    · cases hwrite
      exact .inr ⟨by decide, hrefuses .faulty ‹_› rfl⟩
    all_goals cases hwrite

end World

/-! ## Streams -/

namespace Streams

open StageM

/-- The path under which a stage opens a file that it names. -/
def pathOf (streams : Streams) (name : String) : String :=
  ((streams.directory.join (Path.ofString name)).normalize).toString

variable {shared : Prop} {base streams : Streams} {start w w' : World}

/-- The file for diagnostics has a number, and was opened since the start. -/
def HasErrors (shared : Prop) (base : Streams) (start : World) (h : Handle) (w : World) : Prop :=
  ∃ name, base.redirects.stderr = some name ∧ World.Opened shared start (base.pathOf name) .truncate h w

/-- The streams of a stage that was set up as `base` and began at `start`. -/
structure Ready (shared : Prop) (base : Streams) (start : World) (streams : Streams) (w : World) : Prop where
  setup : base.SameSetup streams
  later : start.Later shared w
  stderr : ∀ h, streams.stderr = some h → HasErrors shared base start h w

/-- A fault that could not be told: since the start, the file for diagnostics was one that refuses what it
    is given, or it was shared and others have closed it. -/
def Silenced (shared : Prop) (base : Streams) (start : World) (fault : Fault) (w : World) : Prop :=
  ∃ name, base.redirects.stderr = some name ∧
    ((∃ moment, start.Later True moment ∧ moment.Later True w ∧ moment.Refuses (base.pathOf name) fault) ∨
      shared ∧ fault = .writeClosed)

theorem HasErrors.later {h : Handle} (hhas : HasErrors shared base start h w) (hlater : w.Later shared w') :
    HasErrors shared base start h w' := by
  obtain ⟨name, hname, hopened⟩ := hhas
  exact ⟨name, hname, hopened.later hlater⟩

theorem ready_lasting : Lasting shared (Ready shared base start) := by
  intro streams w w' hlater hready
  exact ⟨hready.setup, hready.later.trans hlater, fun h hh => (hready.stderr h hh).later hlater⟩

theorem Silenced.later {fault : Fault} (h : Silenced shared base start fault w) (hlater : w.Later True w') :
    Silenced shared base start fault w' := by
  obtain ⟨name, hname, ⟨moment, hstart, hmoment, hrefuses⟩ | hclosed⟩ := h
  · exact ⟨name, hname, .inl ⟨moment, hstart, hmoment.trans hlater, hrefuses⟩⟩
  · exact ⟨name, hname, .inr hclosed⟩

/-- What was set up and the file for diagnostics are not touched. -/
theorem Ready.update {streams' : Streams} (h : Ready shared base start streams w)
    (hsetup : streams.SameSetup streams') (hstderr : streams'.stderr = streams.stderr) :
    Ready shared base start streams' w := by
  refine ⟨⟨?_, ?_, ?_⟩, h.later, ?_⟩
  · exact hsetup.directory.trans h.setup.directory
  · exact hsetup.redirects.trans h.setup.redirects
  · exact hsetup.toPipe.trans h.setup.toPipe
  · rw [hstderr]
    exact h.stderr

/-- Any fault at all. -/
def Whatever (_ : Fault) (_ : World) : Prop := True

/-! ### Opening -/

/-- What is opened for a stage is new, and known to be what its path led to at that moment. -/
theorem openOwned_spec (name : String) (mode : FileSystem.Mode) (h : Ready shared base start streams w) :
    amid shared (openOwned name mode) (fun result after w' => Ready shared base start after w' ∧
      after.stderr = streams.stderr ∧
      ∀ h, result = .ok h → World.Opened shared start (base.pathOf name) mode h w') streams w := by
  have hfailed {fault : Fault} {now : World} (hnow : Ready shared base start streams now) :
      Ready shared base start streams now ∧ streams.stderr = streams.stderr ∧
        ∀ h, (.error fault : Except Fault Handle) = .ok h → World.Opened shared start (base.pathOf name) mode h now :=
    ⟨hnow, rfl, fun _ hok => by cases hok⟩
  have hpath : ((streams.directory.join (Path.ofString name)).normalize).toString = base.pathOf name := by
    rw [pathOf, h.setup.directory]
  unfold openOwned
  rw [amid_get_bind]
  dsimp only
  rw [hpath]
  split
  · rw [amid_throw_bind]
    exact hfailed h
  refine amid_call_bind fun before hbefore reply looked hanswers => ?_
  have hlooked : Ready shared base start streams looked :=
    ready_lasting _ _ _ (hbefore.trans (hanswers.later fun _ hc => by cases hc)) h
  split
  · rw [amid_throw_bind]
    exact hfailed hlooked
  refine amid_call_bind fun now hnow reply opened hanswers => ?_
  have hnow : Ready shared base start streams now := ready_lasting _ _ _ hnow hlooked
  have hlater : now.Later shared opened := hanswers.later fun _ hc => by cases hc
  have hopened := ready_lasting _ _ _ hlater hnow
  cases reply with
  | error cause => exact (amid_throw _).2 (hfailed hopened)
  | ok handle =>
    have hperform := hanswers.performed fun hpipe => hpipe
    have hhandle := World.opened_of_openPath hnow.later hperform
    have hown {w' : World} (hw' : opened.Later shared w') :
        amid shared (do set { streams with owned := handle :: streams.owned }; return handle)
          (fun result after w' => Ready shared base start after w' ∧ after.stderr = streams.stderr ∧
            ∀ h, result = .ok h → World.Opened shared start (base.pathOf name) mode h w') streams w' := by
      have hready := ready_lasting _ _ _ hw' hopened
      refine amid_set_bind.2 ((amid_pure _).2 ⟨hready.update ⟨rfl, rfl, rfl⟩ rfl, rfl, ?_⟩)
      rintro h ⟨⟩
      exact hhandle.later hw'
    dsimp only
    split
    · refine amid_call_bind fun now' hnow' reply sought hanswers => ?_
      have hsought := hnow'.trans (hanswers.later fun _ hc => by cases hc)
      cases reply with
      | ok done => exact hown hsought
      | error cause =>
        refine amid_call_bind fun now'' hnow'' reply closed hanswers => ?_
        cases hanswers.performed fun hpipe => hpipe
        rw [amid_throw_bind]
        -- The file that is closed was opened just now, so that none of the others is touched.
        refine hfailed (ready_lasting _ _ _ (World.close_later (hlater.trans (hsought.trans hnow'')) ?_) hnow)
        exact .inr (Nat.le_of_eq (World.size_of_openPath (congrArg Prod.fst hperform).symm).symm)
    · exact hown (.refl opened)

theorem openOwned_careful (name : String) (mode : FileSystem.Mode) :
    Careful shared (Ready shared base start) Whatever (openOwned name mode) := by
  intro streams w h
  refine amid_mono ?_ (openOwned_spec name mode h)
  intro result after w' hafter
  exact ⟨hafter.1, fun _ _ => trivial⟩

theorem stdinHandle_careful : Careful shared (Ready shared base start) Whatever stdinHandle := by
  refine careful_get_bind fun streams w h => ?_
  split
  · exact careful_pure _
  · exact careful_pure _
  · refine careful_bind (openOwned_careful _ _) fun handle => careful_bind (careful_modify ?_) fun _ => careful_pure _
    exact fun streams w h => h.update ⟨rfl, rfl, rfl⟩ rfl

theorem stdoutHandle_careful : Careful shared (Ready shared base start) Whatever stdoutHandle := by
  refine careful_get_bind fun streams w h => ?_
  split
  · exact careful_pure _
  · exact careful_pure _
  · refine careful_bind (openOwned_careful _ _) fun handle => careful_bind (careful_modify ?_) fun _ => careful_pure _
    exact fun streams w h => h.update ⟨rfl, rfl, rfl⟩ rfl

/-! ### Writing -/

theorem writeNow_careful (sink : Sink) (data : Bytes) :
    Careful shared (Ready shared base start) Whatever (writeNow sink data) := by
  refine careful_bind (careful_call ready_lasting _ fun _ hc => by cases hc) fun reply => ?_
  split
  · exact careful_pure _
  · exact careful_throw fun _ => trivial
  · exact careful_throw fun _ => trivial

/-- A file takes bytes through a buffer that is no business of a condition on the streams. -/
theorem writeFile_careful {I : Streams → World → Prop} {E : Fault → World → Prop} {h : Handle}
    (hwrite : ∀ data, Careful shared I E (writeNow (.file h) data))
    (hbuffer : ∀ streams w unwritten, I streams w → I { streams with unwritten } w) (data : Bytes) :
    Careful shared I E (writeFile h data) := by
  have hset (data : Bytes) : Careful shared I E (setUnwritten h data) :=
    careful_modify fun streams w => hbuffer streams w _
  refine careful_bind (hwrite _) fun _ => careful_get_bind fun streams w _ => ?_
  dsimp only
  split
  · exact careful_bind (hset _) fun _ => careful_bind (hwrite _) fun _ => hset _
  · exact careful_bind (hwrite _) fun _ => careful_bind (hset _) fun _ => hwrite _

theorem writeTo_careful (sink : Sink) (data : Bytes) :
    Careful shared (Ready shared base start) Whatever (writeTo sink data) := by
  unfold writeTo
  split
  · exact writeFile_careful (writeNow_careful _) (fun _ _ _ h => h.update ⟨rfl, rfl, rfl⟩ rfl) _
  · exact writeNow_careful _ _

theorem write_careful (data : Bytes) : Careful shared (Ready shared base start) Whatever (write data) := by
  refine careful_bind stdoutHandle_careful fun handle => ?_
  cases handle with
  | some h => exact writeTo_careful _ _
  | none => exact careful_get_bind fun streams w _ => writeTo_careful _ _

/-- The console takes everything. -/
theorem lineTo_err_careful {I : Streams → World → Prop} {E : Fault → World → Prop} (hI : Lasting shared I)
    (text : String) : Careful shared I E (lineTo .err text) := by
  intro streams w h
  refine amid_call_bind fun now hnow reply after hanswers => ?_
  have hlater := hnow.trans (hanswers.later fun _ hc => by cases hc)
  cases hanswers.performed fun hpipe => hpipe
  exact (amid_pure _).2 ⟨hI _ _ _ hlater h, fun _ hfault => by cases hfault⟩

/-- What the file for diagnostics refuses cannot be told. -/
theorem writeNow_errors_careful (h : Handle) (data : Bytes) :
    Careful shared (fun streams w => Ready shared base start streams w ∧ streams.stderr = some h)
      (Silenced shared base start) (writeNow (.file h) data) := by
  rintro streams w ⟨hready, hstderr⟩
  refine amid_call_bind fun now hnow reply after hanswers => ?_
  have hlater : now.Later shared after := hanswers.later fun _ hc => by cases hc
  have hnow := ready_lasting _ _ _ hnow hready
  have hafter := ready_lasting _ _ _ hlater hnow
  obtain ⟨name, hname, hopened⟩ := hnow.stderr h hstderr
  have hreply : (now.write (.file h) data).1 = reply :=
    congrArg Prod.fst (hanswers.performed fun hpipe => hpipe).symm
  cases reply with
  | ok done => exact (amid_pure _).2 ⟨⟨hafter, hstderr⟩, fun _ hfault => by cases hfault⟩
  | error cause =>
    have hsilenced (fault : Fault) (hfault : Silenced shared base start fault now) :
        amid shared (throw fault : StageM Unit) (fun result after w' =>
          (Ready shared base start after w' ∧ after.stderr = some h) ∧
            ∀ fault, result = .error fault → Silenced shared base start fault w') streams after := by
      refine (amid_throw _).2 ⟨⟨hafter, hstderr⟩, ?_⟩
      rintro fault ⟨⟩
      exact hfault.later hlater.share
    rcases hopened.refusal hreply with ⟨hshared, rfl⟩ | ⟨hcause, moment, hstart, hmoment, hrefuses⟩
    · exact hsilenced _ ⟨name, hname, .inr ⟨hshared, rfl⟩⟩
    · split
      · rename_i hok
        cases hok
      · rename_i hbad
        cases hbad
        exact absurd rfl hcause
      · rename_i hcause'
        cases hcause'
        exact hsilenced _ ⟨name, hname, .inl ⟨moment, hstart.share, hmoment.share, hrefuses⟩⟩

/-- Opening the file for diagnostics never fails for good: the console takes its place. -/
theorem stderrHandle_spec (h : Ready shared base start streams w) :
    amid shared stderrHandle (fun result after w' => Ready shared base start after w' ∧
      (result = .ok none ∨ ∃ h, result = .ok (some h) ∧ after.stderr = some h)) streams w := by
  unfold stderrHandle
  rw [amid_get_bind]
  split
  · exact (amid_pure _).2 ⟨h, .inl rfl⟩
  rename_i name hredirects
  split
  · exact (amid_pure _).2 ⟨h, .inl rfl⟩
  split
  · rename_i handle hopened
    exact (amid_pure _).2 ⟨h, .inr ⟨handle, rfl, hopened⟩⟩
  have hname : base.redirects.stderr = some name := by
    rw [← h.setup.redirects]
    exact hredirects
  refine amid_attempt_bind (openOwned_spec name .truncate h) ?_
  rintro (fault | handle) after w' ⟨hready, -, hopened⟩
  · dsimp only
    rw [amid_modify_bind]
    refine amid_bind (lineTo_err_careful (E := fun _ _ => False) ready_lasting _ _ _ (hready.update ⟨rfl, rfl, rfl⟩ rfl)) ?_ ?_
    · intro _ after w' hafter
      exact (amid_pure _).2 ⟨hafter.1, .inl rfl⟩
    · intro fault after w' hafter
      exact (hafter.2 fault rfl).elim
  · refine amid_modify_bind.2 ((amid_pure _).2 ⟨⟨?_, hready.later, ?_⟩, .inr ⟨handle, rfl, rfl⟩⟩)
    · exact ⟨hready.setup.directory, hready.setup.redirects, hready.setup.toPipe⟩
    · rintro h ⟨⟩
      exact ⟨name, hname, hopened handle rfl⟩

theorem stderrHandle_careful {E : Fault → World → Prop} :
    Careful shared (Ready shared base start) E stderrHandle := by
  intro streams w h
  refine amid_mono ?_ (stderrHandle_spec h)
  rintro result after w' ⟨hready, rfl | ⟨handle, rfl, -⟩⟩
  · exact ⟨hready, fun _ hfault => by cases hfault⟩
  · exact ⟨hready, fun _ hfault => by cases hfault⟩

/-- A diagnostic is told, unless the stage's own file for diagnostics refuses it. -/
theorem error_careful (text : String) :
    Careful shared (Ready shared base start) (Silenced shared base start) (error text) := by
  intro streams w h
  refine amid_bind (stderrHandle_spec h) ?_ ?_
  · rintro handle after w' ⟨hready, hok | ⟨handle', hok, hstderr⟩⟩
    · cases hok
      exact lineTo_err_careful ready_lasting _ _ _ hready
    · cases hok
      have hlasting : ∀ streams w unwritten,
          Ready shared base start streams w ∧ streams.stderr = some handle' →
          Ready shared base start { streams with unwritten } w ∧ streams.stderr = some handle' :=
        fun _ _ _ h => ⟨h.1.update ⟨rfl, rfl, rfl⟩ rfl, h.2⟩
      refine amid_mono ?_ (writeFile_careful (writeNow_errors_careful handle') hlasting _ after w' ⟨hready, hstderr⟩)
      intro result after w' hafter
      exact ⟨hafter.1.1, hafter.2⟩
  · rintro fault after w' ⟨-, hok | ⟨handle', hok, -⟩⟩
    · cases hok
    · cases hok

end Streams

/-! ## Built-in commands -/

namespace Builtin

open StageM Streams

variable {shared : Prop} {base : Streams} {start : World}

theorem errorThen_careful {α : Type} (text : String) (a : α) :
    Careful shared (Ready shared base start) (Silenced shared base start) (do Streams.error text; return a) :=
  careful_bind (error_careful text) fun _ => careful_pure a

/-- Where faults are told later on, any fault will do. -/
theorem whatever_of_silenced {α : Type} {x : StageM α}
    (hx : Careful shared (Ready shared base start) (Silenced shared base start) x) :
    Careful shared (Ready shared base start) Whatever x :=
  careful_mono (fun _ _ _ => trivial) hx

theorem kindOf?_careful (path : Path) : Careful shared (Ready shared base start) Whatever (kindOf? path) := by
  unfold kindOf?
  split
  · exact careful_pure _
  refine careful_bind (careful_call ready_lasting _ fun _ hc => by cases hc) fun reply => ?_
  cases reply with
  | ok kind => exact careful_pure _
  | error cause =>
    dsimp only
    split
    · exact careful_pure _
    · exact careful_throw fun _ => trivial

theorem runExit_careful (args : List String) :
    Careful shared (Ready shared base start) Whatever (runExit args) := by
  unfold runExit
  split
  · exact careful_pure _
  · split
    · exact careful_pure _
    · exact whatever_of_silenced (errorThen_careful _ _)
  · exact whatever_of_silenced (errorThen_careful _ _)

theorem runEcho_careful (args : List String) : Careful shared (Ready shared base start) Whatever (runEcho args) :=
  careful_bind (write_careful _) fun _ => careful_pure _

theorem typeOne_careful (ctx : Context) (name : String) :
    Careful shared (Ready shared base start) Whatever (typeOne ctx name) := by
  refine careful_bind (kindOf?_careful _) fun kind => ?_
  split
  · exact whatever_of_silenced (errorThen_careful _ _)
  · exact whatever_of_silenced (errorThen_careful _ _)
  · refine careful_bind (careful_call ready_lasting _ fun _ hc => by cases hc) fun reply => ?_
    cases reply with
    | error cause => exact whatever_of_silenced (errorThen_careful _ _)
    | ok data => exact careful_bind (write_careful _) fun _ => careful_pure _

theorem typeAll_careful (ctx : Context) (names : List String) :
    Careful shared (Ready shared base start) Whatever (typeAll ctx names) := by
  induction names with
  | nil => exact careful_pure _
  | cons name rest ih =>
    exact careful_bind (typeOne_careful ctx name) fun _ => careful_bind ih fun _ => careful_pure _

theorem runType_careful (ctx : Context) (args : List String) :
    Careful shared (Ready shared base start) Whatever (runType ctx args) := by
  unfold runType
  split
  · exact whatever_of_silenced (errorThen_careful _ _)
  · exact careful_bind (typeAll_careful ctx args) fun _ => careful_pure _

theorem moveTo_careful (ctx : Context) (target : String) :
    Careful shared (Ready shared base start) Whatever (moveTo ctx target) := by
  refine careful_bind (kindOf?_careful _) fun kind => ?_
  split
  · exact whatever_of_silenced (errorThen_careful _ _)
  · exact careful_pure _
  · exact whatever_of_silenced (errorThen_careful _ _)

theorem runCd_careful (ctx : Context) (args : List String) :
    Careful shared (Ready shared base start) Whatever (runCd ctx args) := by
  unfold runCd
  split
  · exact moveTo_careful ctx _
  · exact moveTo_careful ctx _
  · exact whatever_of_silenced (errorThen_careful _ _)

theorem body_careful (b : Builtin) (args : List String) (ctx : Context) :
    Careful shared (Ready shared base start) Whatever (body b args ctx) := by
  cases b with
  | exit => exact careful_bind (runExit_careful args) fun _ => careful_pure _
  | echo => exact careful_bind (runEcho_careful args) fun _ => careful_pure _
  | type => exact careful_bind (runType_careful ctx args) fun _ => careful_pure _
  | cd => exact runCd_careful ctx args

/-- Every fault of a built-in command is told, as far as its diagnostics can be written. -/
theorem run_careful (b : Builtin) (args : List String) (ctx : Context) :
    Careful shared (Ready shared base start) (Silenced shared base start) (run b args ctx) := by
  refine careful_bind (careful_attempt stdinHandle_careful) fun input => ?_
  cases input with
  | error fault => exact careful_get_bind fun streams w _ => errorThen_careful _ _
  | ok handle =>
    refine careful_bind (careful_attempt (body_careful b args ctx)) fun result => ?_
    split
    · exact careful_pure _
    · exact careful_pure _
    · exact errorThen_careful _ _

end Builtin

/-! ## Lookup and launch -/

namespace Lookup

open Job

variable {shared : Prop}

theorem isExecutable_quiet (path : Path) : (isExecutable path).Quiet shared := by
  unfold isExecutable
  split
  · exact quiet_pure _
  refine quiet_bind (quiet_call _ fun _ hc => by cases hc) fun reply => ?_
  cases reply with
  | ok kind => exact quiet_pure _
  | error cause => exact quiet_pure _

theorem firstExecutable_quiet (paths : List Path) : (firstExecutable paths).Quiet shared := by
  induction paths with
  | nil => exact quiet_pure _
  | cons path rest ih =>
    refine quiet_bind (isExecutable_quiet path) fun found => ?_
    cases found with
    | true => exact quiet_pure _
    | false => exact ih

theorem find_quiet (ctx : Context) (name : String) : (find ctx name).Quiet shared := by
  unfold find
  split
  · exact quiet_pure _
  · refine quiet_bind (firstExecutable_quiet _) fun found => ?_
    cases found with
    | none => exact quiet_pure _
    | some path => exact quiet_pure _

end Lookup

section Launch

open Job

variable {shared : Prop}

theorem loadImage_quiet (base : Ino) (depth : Nat) (path : Raw) : (loadImage base depth path).Quiet shared := by
  induction depth using Nat.strongRecOn generalizing path with
  | ind depth ih =>
    rw [loadImage.eq_def]
    refine quiet_bind (quiet_call _ fun _ hc => by cases hc) fun reply => ?_
    split
    · exact quiet_pure _
    · exact quiet_pure _
    · refine quiet_bind (quiet_call _ fun _ hc => by cases hc) fun reply => ?_
      split
      · exact quiet_pure _
      split
      · exact quiet_pure _
      cases depth with
      | zero =>
        refine quiet_bind (quiet_call _ fun _ hc => by cases hc) fun reply => ?_
        split
        · exact quiet_pure _
        · exact quiet_pure _
      | succ depth =>
        refine quiet_bind (ih depth (Nat.lt_succ_self depth) _) fun image => ?_
        split
        · exact quiet_pure _
        · exact quiet_pure _
    · exact quiet_pure _

theorem startFile_quiet (programs : Programs) (path : Raw) (call : Invocation) :
    (startFile programs path call).Quiet shared := by
  unfold startFile
  split
  · exact quiet_pure _
  refine quiet_bind (loadImage_quiet _ _ _) fun image => ?_
  split
  · exact quiet_pure _
  split
  · exact quiet_pure _
  · exact quiet_pure _

namespace Launch

theorem child_quiet (programs : Programs) (ctx : Context) (s : Stage) (path : Path) (stdin : Source)
    (stdout stderr : Sink) : (child programs ctx s path stdin stdout stderr).Quiet shared := by
  unfold child
  split
  · exact quiet_pure _
  refine quiet_bind (quiet_call _ fun _ hc => by cases hc) fun directory => ?_
  split
  · exact quiet_pure _
  refine quiet_bind (quiet_call _ fun _ hc => by cases hc) fun environment => ?_
  refine quiet_bind (startFile_quiet _ _ _) fun job => ?_
  split
  · exact quiet_pure _
  · exact quiet_pure _

open StageM Streams

/-- Launching comes to no fault: why there is no process is part of the result. -/
theorem launch_careful {base : Streams} {start : World} {E : Fault → World → Prop} (programs : Programs)
    (ctx : Context) (s : Stage) (path : Path) (stdin : Source) (stdout : Sink) :
    Careful shared (Ready shared base start) E (launch programs ctx s path stdin stdout) := by
  refine careful_bind stderrHandle_careful fun errors => ?_
  refine careful_bind (careful_attempt stdinHandle_careful) fun input => ?_
  split
  · exact careful_pure _
  refine careful_bind (careful_attempt stdoutHandle_careful) fun output => ?_
  split
  · exact careful_pure _
  refine careful_bind (careful_liftM ready_lasting (child_quiet _ _ _ _ _ _ _)) fun job => ?_
  split
  · exact careful_pure _
  · exact careful_pure _

end Launch

end Launch

end Conch
