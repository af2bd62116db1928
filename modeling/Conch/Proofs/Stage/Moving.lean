-- SUMMARY: The command `cd` moves and writes nothing, or it stays and tells one line; each of its failures has its line.
import Conch.Proofs.Stage.Copying

/-!
# Moving

`cd` either moves or tells why not. What makes it stay can be read off the file system
before it runs: its input cannot be opened, there are too many operands, or the place
that the operand means is missing, no directory, or cannot be looked at because a name is
too long. The first of these that applies is told, in one line, and then the session is
as it was.

The line is heard unless the file for diagnostics refuses it. A file that cannot be opened
refuses nothing: the console takes its place, and that is told there before the line.
-/

namespace Conch

open StageM FileSystem World

/-! ## Looking and opening -/

namespace FileSystem

section Look

variable {fs : FileSystem} {path : String}

theorem stat_of_look {found : FileKind × Except Errno Bytes} (h : fs.look path = .ok (some found)) :
    fs.stat root path true = .ok found.1 := by
  unfold look at h
  split at h
  · cases h
    assumption
  · split at h <;> cases h

theorem stat_of_look_none (h : fs.look path = .ok none) :
    ∃ cause, fs.stat root path true = .error cause ∧ cause.meansAbsent = true := by
  unfold look at h
  split at h
  · cases h
  · split at h
    · exact ⟨_, ‹_›, ‹_›⟩
    · cases h

theorem stat_of_look_error {cause : Errno} (h : fs.look path = .error cause) :
    fs.stat root path true = .error cause := by
  unfold look at h
  split at h
  · cases h
  · split at h
    · cases h
    · cases h
      assumption

end Look

/-- A file cannot be opened, and why. -/
inductive CannotOpen (fs : FileSystem) (path : String) (mode : Mode) : Fault → Prop
  | nul (hnul : hasNul path = true) : CannotOpen fs path mode .nul
  | directory (hnul : hasNul path = false) (hdir : fs.stat root path true = .ok .dir) :
    CannotOpen fs path mode (.system .isDirectory path)
  | refused {cause : Errno} (hnul : hasNul path = false) (hdir : fs.stat root path true ≠ .ok .dir)
      (hrefused : fs.openNode root path mode = .error cause) : CannotOpen fs path mode (.system cause path)

theorem CannotOpen.unique {fs : FileSystem} {path : String} {mode : Mode} {fault fault' : Fault}
    (h : fs.CannotOpen path mode fault) (h' : fs.CannotOpen path mode fault') : fault' = fault := by
  cases h <;> cases h' <;> simp_all

/-- Nothing is at a path, as far as the system lets on. -/
def Missing (fs : FileSystem) (path : String) : Prop :=
  hasNul path = true ∨ ∃ cause, fs.stat root path true = .error cause ∧ cause.meansAbsent = true

end FileSystem

namespace Streams

variable {base σ : Streams} {w w₁ : World} {name : String} {o : Outlet} {notice : Bytes}

/-- Opening a file fails for one of the reasons for which it cannot be opened, and else it succeeds. -/
theorem openOwned_decides {mode : Mode} (hmode : mode ≠ .append) :
    runs (openOwned name mode) (fun result after w' =>
      (∃ fault, result = .error fault ∧ w.files.CannotOpen (σ.pathOf name) mode fault ∧ after = σ ∧ w' = w) ∨
      ((∃ h, result = .ok h) ∧ (∀ fault, ¬ w.files.CannotOpen (σ.pathOf name) mode fault) ∧
        (mode = .read → w'.files = w.files))) σ w := by
  unfold openOwned
  rw [runs_get_bind]
  dsimp only
  rw [show ((σ.directory.join (Path.ofString name)).normalize).toString = σ.pathOf name from rfl]
  generalize σ.pathOf name = path
  split
  · rename_i hnul
    exact runs_throw_bind.2 (.inl ⟨_, rfl, .nul hnul, rfl, rfl⟩)
  rename_i hnul
  rw [Bool.not_eq_true] at hnul
  rw [runs_call_bind]
  simp only [World.perform]
  split
  · rename_i hdir
    exact runs_throw_bind.2 (.inl ⟨_, rfl, .directory hnul hdir, rfl, rfl⟩)
  rename_i hdir
  rw [runs_call_bind]
  simp only [World.perform, World.openPath]
  cases hopen : w.files.openNode root path mode with
  | error cause => exact (runs_throw _).2 (.inl ⟨_, rfl, .refused hnul hdir hopen, rfl, rfl⟩)
  | ok opened =>
    obtain ⟨files, node⟩ := opened
    refine runs_set_bind.2 ((runs_pure _).2 (.inr ⟨⟨_, rfl⟩, ?_, ?_⟩))
    · intro fault hfault
      cases hfault <;> simp_all
    · rintro rfl
      exact openNode_read hopen

/-- The input of a stage has no file, or one that can be opened. -/
def InputOpens (base : Streams) (fs : FileSystem) : Prop :=
  ∀ name fault, base.file? .stdin = some name → ¬ fs.CannotOpen (base.pathOf name) .read fault

/-- Asking for the input fails if its file cannot be opened. -/
theorem stdinHandle_decides (hunused : base.Unused) :
    runs stdinHandle (fun result after w' =>
      (∃ name fault, result = .error fault ∧ base.file? .stdin = some name ∧
        w.files.CannotOpen (base.pathOf name) .read fault ∧ after = base ∧ w' = w) ∨
      ((∃ handle, result = .ok handle) ∧ base.InputOpens w.files ∧ w'.files = w.files)) base w := by
  have hnone : base.stdin = none := hunused.handles .stdin
  unfold stdinHandle
  rw [runs_get_bind]
  simp only [hnone]
  cases hname : base.redirects.stdin with
  | none =>
    refine (runs_pure _).2 (.inr ⟨⟨none, rfl⟩, ?_, rfl⟩)
    intro name fault hfile
    cases hname.symm.trans hfile
  | some name =>
    have hfile : base.file? .stdin = some name := hname
    refine runs_bind (openOwned_decides (by decide)) ?_ ?_
    · rintro h after w' (⟨fault, ⟨⟩, -⟩ | ⟨-, hopens, hfiles⟩)
      refine runs_modify_bind.2 ((runs_pure _).2 (.inr ⟨⟨_, rfl⟩, ?_, hfiles rfl⟩))
      intro name' fault hfile'
      cases hfile.symm.trans hfile'
      exact hopens fault
    · rintro fault after w' (⟨fault', hfault, hcannot, rfl, rfl⟩ | ⟨⟨h, ⟨⟩⟩, -⟩)
      cases hfault
      exact .inl ⟨name, fault, rfl, hfile, hcannot, rfl, rfl⟩

/-! ## Being heard -/

/-- Diagnostics can be written, and where they come to. If their file cannot be opened they come to the console, where
    that is told first. -/
inductive Hears (base : Streams) (w : World) : Outlet → Bytes → Prop
  | takes {o : Outlet} {old : Bytes} (htakes : base.Takes w .stderr o old) : Hears base w o []
  | lost {name : String} {fault : Fault} (hname : base.file? .stderr = some name)
      (hfault : w.files.CannotOpen (base.pathOf name) .truncate fault) :
    Hears base w (.console .err) (utf8Line (fault.about name))

/-- One message was heard, after a notice, and nothing else has come of it. -/
structure Heard (base : Streams) (o : Outlet) (notice message : Bytes) (w w' : World) : Prop where
  console : ∀ c, w'.got c = w.got c ++ o.share c (notice ++ message)
  /-- A file holds the message alone. -/
  stored : ∀ path, o = .stored path → w'.files.fetch root path = .ok message
  elsewhere : ∀ path, (∀ p, base.FileAt .stderr p → w.files.Apart p path reading) →
    w'.files.look path = w.files.look path

/-- Once its file is known not to open, diagnostics go to the console, and that is told there. -/
theorem stderrHandle_lost {fault : Fault} (hname : σ.file? .stderr = some name) (hnone : σ.stderr = none)
    (hsound : σ.stderrFailed = false) (hfault : w.files.CannotOpen (σ.pathOf name) .truncate fault) :
    runs stderrHandle (fun result _ w' => result = .ok none ∧
      Fed (.console .err) (utf8Line (fault.about name)) w w') σ w := by
  unfold stderrHandle
  simp only [runs_get_bind, show σ.redirects.stderr = some name from hname, hnone, hsound, Bool.false_eq_true, if_false]
  refine runs_attempt_bind (openOwned_decides (by decide)) ?_
  rintro result after w' (⟨fault', rfl, hfault', rfl, rfl⟩ | ⟨-, hopens, -⟩)
  · obtain rfl := hfault.unique hfault'
    refine runs_modify_bind.2 (runs_bind (writeNow_console_runs .err _) ?_ (by rintro fault after w' ⟨⟨⟩, -⟩))
    rintro - after w' ⟨-, rfl, hfed⟩
    exact (runs_pure _).2 ⟨rfl, hfed⟩
  · exact absurd hfault (hopens fault)

/-- What is told is heard, whatever became of the input before. -/
theorem Hears.error (h : base.Hears w o notice) (hunused : base.Unused) (hlinked : w.files.Linked)
    (honly : OnlyAt .stdin base σ) (hbeside : Beside (fun _ => False) w w₁) (hfiles : w₁.files = w.files)
    (hgot : ∀ c, w₁.got c = w.got c) (text : String) :
    runs (error text) (fun result _ w' => result = .ok () ∧ Heard base o notice (utf8Line text) w w') σ w₁ := by
  have hlinked₁ : w₁.files.Linked := hbeside.linked hlinked
  cases h with
  | @takes _ old htakes =>
    have hst : Stream.stderr ≠ .stdin := nofun
    have hstands : Stands base σ w₁ .stderr o old none :=
      (htakes.stands hunused).beside honly.setup (honly.others .stderr hst) (fun _ => honly.sound) hbeside
        fun p _ => ⟨hlinked, nofun⟩
    have hsettled : ∀ h, σ.SettledAt h := fun h => (hunused.settledAt h).of_noneLeft honly.left
    rw [Stream.error_eq_put]
    refine runs_mono ?_ (put_runs hst honly.setup hlinked₁ hstands (fun h _ => hsettled h) (utf8Line text))
    rintro result after w' ⟨hresult, hafter, -, hfed⟩
    refine ⟨hresult, ?_, ?_, ?_⟩
    · intro c
      rw [hfed.poured c, hgot c]
      rfl
    · rintro path rfl
      exact hafter.fetch
    · intro path hapart
      have hwritten : Beside (base.FileAt .stderr) w₁ w' := hfed.beside.mono fun p hp => hstands.fileAt hp
      have hall : Beside (base.FileAt .stderr) w w' := (hbeside.mono nofun).trans hwritten
      exact hall.look ⟨hlinked, hapart⟩
  | @lost name fault hname hfault =>
    rw [← hfiles, ← honly.setup.pathOf] at hfault
    have hnone : σ.stderr = none := (honly.others .stderr nofun).trans (hunused.handles .stderr)
    have hlost := stderrHandle_lost ((honly.setup.file? .stderr).trans hname) hnone (honly.sound.trans hunused.sound) hfault
    unfold Streams.error
    refine runs_bind hlost ?_ (by rintro fault after w' ⟨⟨⟩, -⟩)
    rintro _ after w' ⟨⟨⟩, hnotice⟩
    refine runs_mono ?_ (writeNow_console_runs .err (utf8Line text))
    rintro result last w₂ ⟨hresult, -, hline⟩
    have hfed := hnotice.trans hline
    refine ⟨hresult, ?_, nofun, ?_⟩
    · intro c
      rw [hfed.poured c, hgot c]
    · intro path hapart
      have hall : Beside (fun _ => False) w w₂ := hbeside.trans (hfed.beside.mono nofun)
      exact hall.look ⟨hlinked, nofun⟩

/-- Closing files is no matter of what was heard. -/
theorem Heard.closing {message : Bytes} {w' : World} (h : Heard base o notice message w w') (handles : List Handle) :
    Heard base o notice message w (handles.foldl World.close w') := by
  have hfiles := (closeAll_view handles w').files
  refine ⟨fun c => (got_closeAll handles w' c).trans (h.console c), ?_, ?_⟩
  · rw [hfiles]
    exact h.stored
  · rw [hfiles]
    exact h.elsewhere

end Streams

/-! ## What `cd` does -/

namespace Builtin

open Streams

variable {base σ : Streams} {w w₁ : World} {ctx : Context} {args : List String}

/-- What comes of asking for the kind of what is at a path. -/
inductive Finds (fs : FileSystem) (path : String) : Except Fault (Option FileKind) → Prop
  | missing (hmissing : fs.Missing path) : Finds fs path (.ok none)
  | present {kind : FileKind} (hnul : hasNul path = false) (hstat : fs.stat root path true = .ok kind) :
    Finds fs path (.ok (some kind))
  | tooLong (hnul : hasNul path = false) (hstat : fs.stat root path true = .error .nameTooLong) :
    Finds fs path (.error (.system .nameTooLong path))

theorem kindOf?_finds (path : Path) :
    runs (kindOf? path) (fun result after w' => after = σ ∧ w' = w ∧ Finds w.files path.toString result) σ w := by
  refine runs_mono ?_ (kindOf?_runs path)
  rintro _ after w' ⟨rfl, rfl, rfl⟩
  refine ⟨rfl, rfl, ?_⟩
  split
  · rename_i hnul
    exact .missing (.inl hnul)
  rename_i hnul
  rw [Bool.not_eq_true] at hnul
  cases hlook : w'.files.look path.toString with
  | error cause =>
    obtain rfl := look_eq_error hlook
    exact .tooLong hnul (stat_of_look_error hlook)
  | ok found =>
    cases found with
    | none => exact .missing (.inr (stat_of_look_none hlook))
    | some found => exact .present hnul (stat_of_look hlook)

/-- The operand of `cd`, which is the home if none is given. -/
def operandOf (args : List String) : String :=
  args.headD "~"

/-- Why `cd` does not go where its operands say, and the line that tells of it. -/
inductive Refuses (ctx : Context) (fs : FileSystem) (args : List String) : String → Prop
  | tooMany (hargs : 1 < args.length) : Refuses ctx fs args "cd: too many arguments"
  | missing (hargs : args.length ≤ 1) (hmissing : fs.Missing (destination ctx (operandOf args)).toString) :
    Refuses ctx fs args s!"cd: {operandOf args}: No such file or directory"
  | notDirectory {kind : FileKind} (hargs : args.length ≤ 1)
      (hnul : hasNul (destination ctx (operandOf args)).toString = false)
      (hstat : fs.stat root (destination ctx (operandOf args)).toString true = .ok kind) (hkind : kind ≠ .dir) :
    Refuses ctx fs args s!"cd: {operandOf args}: Not a directory"
  | tooLong (hargs : args.length ≤ 1) (hnul : hasNul (destination ctx (operandOf args)).toString = false)
      (hstat : fs.stat root (destination ctx (operandOf args)).toString true = .error .nameTooLong) :
    Refuses ctx fs args (faultLine .cd (.system .nameTooLong (destination ctx (operandOf args)).toString))

/-- Why `cd` stays where it is, and the line that tells of it. -/
inductive Stays (base : Streams) (ctx : Context) (fs : FileSystem) (args : List String) : String → Prop
  | input {name : String} {fault : Fault} (hname : base.file? .stdin = some name)
      (hfault : fs.CannotOpen (base.pathOf name) .read fault) : Stays base ctx fs args (fault.about s!"cd: {name}")
  | operand {line : String} (hinput : base.InputOpens fs) (hrefuses : Refuses ctx fs args line) :
    Stays base ctx fs args line

/-- There is one operand at most, and it leads to a directory. -/
structure Leads (ctx : Context) (fs : FileSystem) (args : List String) : Prop where
  single : args.length ≤ 1
  no_nul : hasNul (destination ctx (operandOf args)).toString = false
  isDirectory : fs.stat root (destination ctx (operandOf args)).toString true = .ok .dir

theorem Leads.not_stays {fs : FileSystem} {line : String} (h : Leads ctx fs args) (hinput : base.InputOpens fs) :
    ¬ Stays base ctx fs args line := by
  intro hstays
  cases hstays with
  | input hname hfault => exact hinput _ _ hname hfault
  | operand _ hrefuses =>
    cases hrefuses with
    | tooMany hargs => exact absurd h.single (Nat.not_le.2 hargs)
    | missing _ hmissing =>
      rcases hmissing with hnul | ⟨cause, hstat, -⟩
      · exact absurd hnul (by simp [h.no_nul])
      · cases h.isDirectory.symm.trans hstat
    | notDirectory _ _ hstat hkind =>
      cases h.isDirectory.symm.trans hstat
      exact hkind rfl
    | tooLong _ _ hstat => cases h.isDirectory.symm.trans hstat

/-- What the body of `cd` comes to, where telling a line has some effect. A place that cannot be looked at is a fault,
    and that is not told yet. -/
inductive Tries (ctx : Context) (args : List String) (T : String → World → Prop) (σ : Streams) (w : World) :
    Except Fault (BuiltinEnd × Context) → Streams → World → Prop
  | moved (hleads : Leads ctx w.files args) :
    Tries ctx args T σ w (.ok (.status success, ctx.moveTo (destination ctx (operandOf args)))) σ w
  | told {line : String} {after : Streams} {w' : World} (hrefuses : Refuses ctx w.files args line)
      (htold : T line w') : Tries ctx args T σ w (.ok (.status failure, ctx)) after w'
  | stopped {path : String} (hrefuses : Refuses ctx w.files args (faultLine .cd (.system .nameTooLong path))) :
    Tries ctx args T σ w (.error (.system .nameTooLong path)) σ w

section Body

variable {T : String → World → Prop}

theorem refused_runs (htell : ∀ text, runs (Streams.error text) (fun result _ w' => result = .ok () ∧ T text w') σ w)
    {line : String} (hrefuses : Refuses ctx w.files args line) :
    runs (do Streams.error line; return (.status failure, ctx)) (Tries ctx args T σ w) σ w := by
  refine runs_bind (htell line) ?_ (by rintro fault after w' ⟨⟨⟩, -⟩)
  rintro - after w' ⟨-, htold⟩
  exact (runs_pure _).2 (.told hrefuses htold)

theorem moveTo_runs (htell : ∀ text, runs (Streams.error text) (fun result _ w' => result = .ok () ∧ T text w') σ w)
    (hargs : args.length ≤ 1) : runs (moveTo ctx (operandOf args)) (Tries ctx args T σ w) σ w := by
  unfold moveTo
  refine runs_bind (kindOf?_finds _) ?_ ?_
  · rintro found after w' ⟨rfl, rfl, hfound⟩
    cases hfound with
    | missing hmissing => exact refused_runs htell (.missing hargs hmissing)
    | @present kind hnul hstat =>
      by_cases hdir : kind = .dir
      · subst hdir
        exact (runs_pure _).2 (.moved ⟨hargs, hnul, hstat⟩)
      · have hrefused := refused_runs htell (.notDirectory hargs hnul hstat hdir)
        cases kind <;> first
          | exact hrefused
          | contradiction
  · rintro fault after w' ⟨rfl, rfl, hfound⟩
    cases hfound with
    | tooLong hnul hstat => exact .stopped (.tooLong hargs hnul hstat)

/-- The body of `cd` looks at one place at most, and moves there or not. -/
theorem runCd_runs (htell : ∀ text, runs (Streams.error text) (fun result _ w' => result = .ok () ∧ T text w') σ w)
    (args : List String) : runs (runCd ctx args) (Tries ctx args T σ w) σ w := by
  have hone : ∀ args, args.length ≤ 1 → runs (moveTo ctx (operandOf args)) (Tries ctx args T σ w) σ w :=
    fun args hargs => moveTo_runs htell hargs
  match args with
  | [] => exact hone [] (Nat.zero_le 1)
  | [target] => exact hone [target] (Nat.le_refl 1)
  | _ :: _ :: _ => exact refused_runs htell (.tooMany (by simp))

end Body

/-! ## The whole command -/

/-- How `cd` ends: it has moved and nothing else has come of it, or it is where it was and one line was heard. -/
inductive Went (base : Streams) (ctx : Context) (args : List String) (o : Outlet) (notice : Bytes) (w : World) :
    Nat → Context → World → Prop
  | moved {w' : World} (hinput : base.InputOpens w.files) (hleads : Leads ctx w.files args)
      (hfiles : w'.files = w.files) (hgot : ∀ c, w'.got c = w.got c) :
    Went base ctx args o notice w success (ctx.moveTo (destination ctx (operandOf args))) w'
  | stayed {w' : World} {line : String} (hstays : Stays base ctx w.files args line)
      (hheard : Heard base o notice (utf8Line line) w w') : Went base ctx args o notice w failure ctx w'

theorem run_cd_runs {o : Outlet} {notice : Bytes} (hhears : base.Hears w o notice) (hunused : base.Unused)
    (hlinked : w.files.Linked) (ctx : Context) (args : List String) :
    runs (run .cd args ctx) (fun result _ w' => ∃ code after, result = .ok (.status code, after) ∧
      Went base ctx args o notice w code after w') base w := by
  unfold run
  refine runs_attempt_bind (runs_and (stdinHandle_decides hunused) (stdinHandle_runs hlinked)) ?_
  rintro result σ w₁ ⟨⟨name, fault, rfl, hname, hfault, rfl, rfl⟩ | ⟨⟨handle, rfl⟩, hinput, hfiles⟩, hσ, hbeside, hgot⟩
  · have htell := hhears.error hunused hlinked (.refl .stdin _) .refl rfl (fun _ => rfl) (fault.about s!"cd: {name}")
    dsimp only
    rw [runs_get_bind, show σ.redirects.stdin = some name from hname]
    refine runs_bind htell ?_ (by rintro fault after w' ⟨⟨⟩, -⟩)
    rintro - after w' ⟨-, hheard⟩
    exact (runs_pure _).2 ⟨_, _, rfl, .stayed (.input hname hfault) hheard⟩
  · have honly : OnlyAt .stdin base σ := by
      rcases hσ with rfl | ⟨h, rfl⟩
      · exact .refl .stdin _
      · exact onlyAt_owning h
    have htell := hhears.error hunused hlinked honly hbeside hfiles hgot
    refine runs_attempt_bind (runCd_runs htell args) ?_
    rintro _ after w₂ (⟨hleads⟩ | ⟨hrefuses, hheard⟩ | ⟨hrefuses⟩)
    · rw [hfiles] at hleads
      exact (runs_pure _).2 ⟨_, _, rfl, .moved hinput hleads hfiles hgot⟩
    · rw [hfiles] at hrefuses
      exact (runs_pure _).2 ⟨_, _, rfl, .stayed (.operand hinput hrefuses) hheard⟩
    · rw [hfiles] at hrefuses
      refine runs_bind (htell _) ?_ (by rintro fault after w' ⟨⟨⟩, -⟩)
      rintro - after w' ⟨-, hheard⟩
      exact (runs_pure _).2 ⟨_, _, rfl, .stayed (.operand hinput hrefuses) hheard⟩

/-- `cd` ends with 0 in the directory that its operand means, and has written nothing, or it ends with 1 in the context
    it was in, and one message was heard. It ends with 1 for each reason to stay, and for no other. -/
theorem cd_moves_or_tells (s : Stage) (ctx : Context) (toPipe : Bool) (w : World) {o : Outlet} {notice : Bytes}
    (hlinked : w.files.Linked) (hhears : (Streams.ofStage s ctx.directory toPipe).Hears w o notice) :
    ∃ code after w', Job.run ((run .cd s.args ctx).closing (.ofStage s ctx.directory toPipe)) w =
        (.ok (.status code, after), w') ∧
      after.home = ctx.home ∧ after.searchPath = ctx.searchPath ∧
      (code = 0 ∧ (∀ line, ¬ Stays (.ofStage s ctx.directory toPipe) ctx w.files s.args line) ∧
          Leads ctx w.files s.args ∧ after.directory = destination ctx (operandOf s.args) ∧
          (s.args = [] ∨ s.args = ["~"] → after.directory = ctx.home) ∧
          w'.files = w.files ∧ (∀ c, w'.got c = w.got c) ∨
        code = 1 ∧ after = ctx ∧ ∃ line, Stays (.ofStage s ctx.directory toPipe) ctx w.files s.args line ∧
          Heard (.ofStage s ctx.directory toPipe) o notice (utf8Line line) w w') := by
  obtain ⟨_, after, w₁, hrun, code, ctx', rfl, hwent⟩ :=
    exists_run (run_cd_runs hhears (unused_ofStage s ctx.directory toPipe) hlinked ctx s.args)
  refine ⟨code, ctx', _, run_closing hrun, ?_⟩
  cases hwent with
  | moved hinput hleads hfiles hgot =>
    have hhome : s.args = [] ∨ s.args = ["~"] → destination ctx (operandOf s.args) = ctx.home := by
      rintro (hnone | htilde)
      · simp [hnone, operandOf, destination]
      · simp [htilde, operandOf, destination]
    refine ⟨rfl, rfl, .inl ⟨rfl, fun line => hleads.not_stays hinput, hleads, rfl, hhome, ?_, fun c => ?_⟩⟩
    · exact (closeAll_view after.owned w₁).files.trans hfiles
    · exact (got_closeAll after.owned w₁ c).trans (hgot c)
  | stayed hstays hheard => exact ⟨rfl, rfl, .inr ⟨rfl, rfl, _, hstays, hheard.closing after.owned⟩⟩

/-- A world with a directory `/d`, a link `/l` to it and a file `/f`. -/
def linkedWorld : World :=
  { files := ⟨#[.dir 0 [("d", 1), ("l", 2), ("f", 3)], .dir 0 [], .link "d", .file [] false]⟩ }

theorem executable_cd : IsExecutableName "cd" := by
  decide

/-- `cd l < f` -/
def linkStage : Stage where
  executable := "cd"
  args := ["l"]
  redirects := some { stdin := some "f" }
  executable_ok := executable_cd

/-- `cd f 2> e`, where there is no `e`. -/
def fileStage : Stage where
  executable := "cd"
  args := ["f"]
  redirects := some { stderr := some "e" }
  executable_ok := executable_cd

theorem linkStage_inputOpens : (Streams.ofStage linkStage .rootPath false).InputOpens linkedWorld.files := by
  have hpath : (Streams.ofStage linkStage .rootPath false).pathOf "f" = "/f" := by decide +kernel
  rintro _ fault ⟨⟩ hfault
  rw [hpath] at hfault
  cases hfault with
  | nul hnul => exact absurd hnul (by decide)
  | directory _ hdir => exact absurd hdir (by decide +kernel)
  | refused _ _ hrefused =>
    have hopens : (linkedWorld.files.openNode root "/f" .read).isOk = true := by decide +kernel
    rw [hrefused] at hopens
    cases hopens

/-- Without input, `cd` tells of one operand that is no directory in just this way. -/
theorem Stays.line_eq {fs : FileSystem} {kind : FileKind} {line : String} (h : Stays base ctx fs args line)
    (hinput : base.file? .stdin = none) (hargs : args.length ≤ 1)
    (hnul : hasNul (destination ctx (operandOf args)).toString = false)
    (hstat : fs.stat root (destination ctx (operandOf args)).toString true = .ok kind) :
    line = s!"cd: {operandOf args}: Not a directory" := by
  cases h with
  | input hname => cases hinput.symm.trans hname
  | operand _ hrefuses =>
    cases hrefuses with
    | tooMany hmany => exact absurd hargs (Nat.not_le.2 hmany)
    | missing _ hmissing =>
      rcases hmissing with hheld | ⟨cause, hfailed, -⟩
      · cases hnul.symm.trans hheld
      · cases hstat.symm.trans hfailed
    | notDirectory => rfl
    | tooLong _ _ hfailed => cases hstat.symm.trans hfailed

/-- A link to a directory is moved to by its own name, and what is no directory is told in a new file. -/
theorem cd_moves_or_tells_at_link_and_file :
    (∃ w', Job.run ((run .cd linkStage.args copyContext).closing (.ofStage linkStage .rootPath false)) linkedWorld =
        (.ok (.status 0, copyContext.moveTo ⟨.root, ["l"]⟩), w') ∧ w'.files = linkedWorld.files ∧ w'.err = []) ∧
    ∃ w', Job.run ((run .cd fileStage.args copyContext).closing (.ofStage fileStage .rootPath false)) linkedWorld =
        (.ok (.status 1, copyContext), w') ∧
      w'.files.fetch root "/e" = .ok (utf8Line "cd: f: Not a directory") ∧ w'.err = [] := by
  have hsound : linkedWorld.files.Sound := by decide
  constructor
  · have htakes : (Streams.ofStage linkStage .rootPath false).Takes linkedWorld .stderr (.console .err) [] :=
      .inherited rfl
    obtain ⟨code, after, w', hrun, hhome, hsearch, hwent⟩ :=
      cd_moves_or_tells linkStage copyContext false linkedWorld hsound.linked (.takes htakes)
    rcases hwent with ⟨rfl, -, -, hdirectory, -, hfiles, hgot⟩ | ⟨-, -, line, hstays, -⟩
    · have hafter : after = copyContext.moveTo ⟨.root, ["l"]⟩ := by
        obtain ⟨directory, home, searchPath⟩ := after
        have hplace : destination copyContext (operandOf linkStage.args) = ⟨.root, ["l"]⟩ := by decide
        rw [hplace] at hdirectory
        cases hdirectory
        cases hhome
        cases hsearch
        rfl
      exact ⟨w', hafter ▸ hrun, hfiles, hgot .err⟩
    · have hleads : Leads copyContext linkedWorld.files linkStage.args := ⟨by decide, by decide, by decide +kernel⟩
      exact absurd hstays (hleads.not_stays linkStage_inputOpens)
  · have hpath : (Streams.ofStage fileStage .rootPath false).pathOf "e" = "/e" := by decide +kernel
    have htarget : linkedWorld.files.Target "/e" (.missing 0 "e") [] := ⟨by decide +kernel, by decide +kernel, rfl⟩
    have hlands : linkedWorld.files.Lands ((Streams.ofStage fileStage .rootPath false).pathOf "e") (.stored "/e") [] := by
      rw [hpath]
      exact .stored htarget
    have hhears : (Streams.ofStage fileStage .rootPath false).Hears linkedWorld (.stored "/e") [] :=
      .takes (.file rfl hlands)
    have hstat : linkedWorld.files.stat root (destination copyContext (operandOf fileStage.args)).toString true =
        .ok (.file false) := by
      decide +kernel
    obtain ⟨code, after, w', hrun, -, -, hwent⟩ :=
      cd_moves_or_tells fileStage copyContext false linkedWorld hsound.linked hhears
    rcases hwent with ⟨-, -, hleads, -⟩ | ⟨rfl, rfl, line, hstays, hheard⟩
    · cases hstat.symm.trans hleads.isDirectory
    · obtain rfl := hstays.line_eq rfl (by decide) (by decide) hstat
      exact ⟨w', hrun, hheard.stored "/e" rfl, hheard.console .err⟩

end Builtin

end Conch
