-- SUMMARY: What one redirected `echo` does to the world: it writes its line to the file that it names.
import Conch.Proofs.Stage.Phases
import Conch.Proofs.System.Writing

/-!
# One redirected echo

An `echo` whose output goes to a file opens the file, writes its line after what is
in it and closes it. `World.Writes` is the state in between: the file is open, and
what is written next comes after its content. Whether a file is overwritten or
continued is settled when it is opened.
-/

namespace Conch

open StageM FileSystem

/-! ## Running a stage's calls -/

theorem StageM.run_call (c : Call) (streams : Streams) (w : World) :
    Job.run (call c streams) w = ((.ok (w.perform c).1, streams), (w.perform c).2) :=
  run_liftM (Job.call c) streams w

theorem StageM.run_attempt {α : Type} {x : StageM α} {result : Except Fault α} {streams streams' : Streams}
    {w w' : World} (h : Job.run (x streams) w = ((result, streams'), w')) :
    Job.run (attempt x streams) w = ((.ok result, streams'), w') := by
  refine (Job.run_bind (x streams) _ w).trans ?_
  rw [h]
  rfl

theorem StageM.run_get (streams : Streams) (w : World) :
    Job.run ((get : StageM Streams) streams) w = ((.ok streams, streams), w) := rfl

/-! ## An open file that is written to its end -/

/-- A file was opened at a spot of a world, and what is written next goes after what is in it. -/
structure World.Writes (w : World) (spot : Spot) (content : Bytes) (h : Handle) (w' : World) : Prop where
  files : w.files.Wrote spot content w'.files
  opened : ∃ f, w'.openFile? h = some f ∧ f.node = w.files.nodeAt spot ∧
    (f.mode = .append ∨ f.mode = .truncate ∧ f.position = content.length)
  out : w'.out = w.out
  err : w'.err = w.err

namespace World

variable {w w' : World} {spot : Spot} {content : Bytes} {h : Handle}

theorem splice_end (content data : Bytes) : splice content content.length data = content ++ data := by
  simp [splice]

theorem openFile?_seek {f : OpenFile} (hf : w.openFile? h = some f) (position : Nat) :
    (w.seek h f position).openFile? h = some { f with position } := by
  obtain ⟨hopened, hopen⟩ := openFile?_eq_some hf
  have hset : (w.seek h f position).opened[h]? = some { f with position } :=
    Array.getElem?_setIfInBounds_self_of_lt (Array.getElem?_eq_some_iff.1 hopened).1
  rw [openFile?_of_some hset]
  simp [hopen]

/-- Opening a file empties it if it is to be overwritten. -/
theorem openPath_writes {path : String} {old : Bytes} (hlinked : w.files.Linked)
    (htarget : w.files.Target path spot old) (append : Bool) :
    ∃ w', w.openPath root path (if append then .append else .truncate) = (.ok w.opened.size, w') ∧
      w.Writes spot (if append then old else []) w.opened.size w' := by
  obtain ⟨files, hopen, hwrote⟩ := htarget.openNode hlinked append
  have hfile : ∀ f : OpenFile, f.isOpen = true →
      World.openFile? { w with files, opened := w.opened.push f } w.opened.size = some f := by
    intro f hopen
    simp [openFile?, hopen]
  refine ⟨_, by simp only [openPath, hopen]; rfl, hwrote, ⟨_, hfile _ rfl, rfl, ?_⟩, rfl, rfl⟩
  cases append <;> simp

/-- Going to the end of an open file changes nothing about what comes next. -/
theorem Writes.seekEnd (hwrites : w.Writes spot content h w') :
    ∃ w'', w'.seekEnd h = (.ok (), w'') ∧ w.Writes spot content h w'' := by
  obtain ⟨f, hf, hnode, hmode⟩ := hwrites.opened
  obtain ⟨executable, hfile⟩ := hwrites.files.file
  refine ⟨w'.seek h f content.length, by simp only [World.seekEnd, hf, hnode, hfile], hwrites.files, ?_, hwrites.out,
    hwrites.err⟩
  exact ⟨_, openFile?_seek hf _, hnode, by simpa using hmode.imp id And.left⟩

/-- What is written to a file comes after what is in it. -/
theorem Writes.write (hwrites : w.Writes spot content h w') (data : Bytes) :
    ∃ w'', w'.write (.file h) data = (.ok (), w'') ∧ w.Writes spot (content ++ data) h w'' := by
  obtain ⟨f, hf, hnode, hmode⟩ := hwrites.opened
  obtain ⟨executable, hfile⟩ := hwrites.files.file
  have hread : f.mode ≠ .read := by
    rcases hmode with hmode | ⟨hmode, -⟩ <;> simp [hmode]
  have hposition : (if f.mode = .append then content.length else f.position) = content.length := by
    rcases hmode with hmode | ⟨hmode, hposition⟩
    · simp [hmode]
    · simp [hposition]
  cases data with
  | nil =>
    refine ⟨w', ?_, by simpa using hwrites⟩
    simp [World.write, hf, writeFile, hread]
  | cons b rest =>
    have hwritten := hwrites.files.setNode (content ++ b :: rest) executable
    rw [← hnode] at hfile hwritten
    let filled : World := { w' with files := w'.files.setNode f.node (.file (content ++ b :: rest) executable) }
    refine ⟨filled.seek h f (content.length + (b :: rest).length), ?_, hwritten, ?_, hwrites.out, hwrites.err⟩
    · simp only [World.write, hf, writeFile, hread, hfile, hposition, splice_end]
      rfl
    · refine ⟨_, openFile?_seek (w := filled) hf _, hnode, ?_⟩
      simpa using hmode.imp id And.left

end World

namespace Streams

variable {w w' : World} {spot : Spot} {old content : Bytes} {h : Handle}

theorem writeNow_run (hwrites : w.Writes spot content h w') (data : Bytes) (streams : Streams) :
    ∃ w'', Job.run (writeNow (.file h) data streams) w' = ((.ok (), streams), w'') ∧
      w.Writes spot (content ++ data) h w'' := by
  obtain ⟨w'', hwrite, hwrites'⟩ := hwrites.write data
  refine ⟨w'', ?_, hwrites'⟩
  have hcall := run_call (.write (.file h) data) streams w'
  simp only [World.perform, hwrite] at hcall
  unfold writeNow
  rw [run_bind_ok hcall]
  rfl

/-- Streams on which a file has refused some data. -/
def withUnwritten (streams : Streams) (h : Handle) (data : Bytes) : Streams :=
  { streams with unwritten := (h, data) :: streams.unwritten.filter (·.1 ≠ h) }

theorem setUnwritten_run (h : Handle) (data : Bytes) (streams : Streams) (w : World) :
    Job.run (setUnwritten h data streams) w = ((.ok (), streams.withUnwritten h data), w) := rfl

/-- Data of any length reach the file as a whole, if nothing was refused before. -/
theorem writeFile_run (streams : Streams) (hwrites : w.Writes spot content h w') (hnone : streams.unwritten = [])
    (data : Bytes) :
    ∃ streams' w'', Job.run (writeFile h data streams) w' = ((.ok (), streams'), w'') ∧
      w.Writes spot (content ++ data) h w'' := by
  obtain ⟨w₁, hrun₁, hwrites₁⟩ := writeNow_run hwrites [] streams
  rw [List.append_nil] at hwrites₁
  unfold writeFile
  rw [run_bind_ok hrun₁, run_bind_ok (run_get streams w₁)]
  simp only [hnone, List.lookup_nil, Option.getD_none, List.nil_append, List.length_nil, Nat.zero_add]
  split
  · rw [run_bind_ok (setUnwritten_run h data streams w₁)]
    obtain ⟨w₂, hrun₂, hwrites₂⟩ := writeNow_run hwrites₁ data (streams.withUnwritten h data)
    rw [run_bind_ok hrun₂]
    exact ⟨_, w₂, setUnwritten_run h [] _ w₂, hwrites₂⟩
  · obtain ⟨w₂, hrun₂, hwrites₂⟩ := writeNow_run hwrites₁ [] streams
    rw [run_bind_ok hrun₂, run_bind_ok (setUnwritten_run h [] streams w₂)]
    obtain ⟨w₃, hrun₃, hwrites₃⟩ := writeNow_run hwrites₂ data (streams.withUnwritten h [])
    rw [List.append_nil] at hwrites₃
    exact ⟨_, w₃, hrun₃, hwrites₃⟩

/-- A file that can be written to is opened and owned. -/
theorem openOwned_run {name : String} (append : Bool) (streams : Streams) (hlinked : w.files.Linked)
    (htarget : w.files.Target ((streams.directory.join (Path.ofString name)).normalize).toString spot old) :
    ∃ w', Job.run (openOwned name (if append then .append else .truncate) streams) w =
        ((.ok w.opened.size, { streams with owned := w.opened.size :: streams.owned }), w') ∧
      w.Writes spot (if append then old else []) w.opened.size w' := by
  unfold openOwned
  rw [run_bind_ok (run_get streams w)]
  dsimp only
  generalize ((streams.directory.join (Path.ofString name)).normalize).toString = path at htarget ⊢
  obtain ⟨w₁, hopen, hwrites⟩ := World.openPath_writes hlinked htarget append
  have hstat : Job.run (call (.stat root path true) streams) w = ((.ok (w.files.stat root path true), streams), w) :=
    run_call (.stat root path true) streams w
  have hopened := run_call (.openFile root path (if append then .append else .truncate)) streams w
  simp only [World.perform, hopen] at hopened
  have hkind : w.files.stat root path true = .ok .dir → False := htarget.not_dir
  rw [if_neg (by simp [htarget.no_nul]), run_bind_ok hstat]
  -- The branch of the match follows from `hkind`.
  simp only
  rw [run_bind_ok hopened]
  cases append with
  | false => exact ⟨w₁, rfl, hwrites⟩
  | true =>
    obtain ⟨w₂, hseek, hwrites₂⟩ := hwrites.seekEnd
    have hsought := run_call (.seekEnd w.opened.size) streams w₁
    simp only [World.perform, hseek] at hsought
    simp only [if_true]
    rw [run_bind_ok hsought]
    exact ⟨w₂, rfl, hwrites₂⟩

/-- Output that goes to a file is written to its end, once the file is open. -/
theorem write_run (streams : Streams) {name : String} (hstdout : streams.redirects.stdout = some name)
    (hfirst : streams.stdout = none) (hnone : streams.unwritten = []) (hlinked : w.files.Linked)
    (htarget : w.files.Target ((streams.directory.join (Path.ofString name)).normalize).toString spot old)
    (data : Bytes) :
    ∃ streams' w' h, Job.run (write data streams) w = ((.ok (), streams'), w') ∧
      w.Writes spot ((if streams.redirects.append then old else []) ++ data) h w' := by
  obtain ⟨w₁, hopen, hwrites⟩ := openOwned_run streams.redirects.append streams hlinked htarget
  have hhandle : Job.run (stdoutHandle streams) w =
      ((.ok (some w.opened.size),
        { streams with owned := w.opened.size :: streams.owned, stdout := some w.opened.size }), w₁) := by
    unfold stdoutHandle
    rw [run_bind_ok (run_get streams w)]
    simp only [hstdout, hfirst]
    rw [run_bind_ok hopen]
    rfl
  obtain ⟨streams', w', hwrite, hwritten⟩ := writeFile_run
    { streams with owned := w.opened.size :: streams.owned, stdout := some w.opened.size } hwrites hnone data
  refine ⟨streams', w', w.opened.size, ?_, hwritten⟩
  unfold write
  rw [run_bind_ok hhandle]
  exact hwrite

end Streams

/-! ## Redirected `echo` -/

/-- An `echo` whose output goes to a file, and which is not redirected otherwise. -/
structure Echo where
  args : List String
  file : String
  append : Bool
  deriving DecidableEq, Repr

namespace Echo

theorem executable_ok : IsExecutableName "echo" := by
  decide

/-- The command as a stage. -/
def stage (e : Echo) : Stage :=
  ⟨"echo", e.args, some { stdout := some e.file, append := e.append }, executable_ok⟩

/-- What is written: the arguments parted by single spaces, and a line end. -/
def line (e : Echo) : Bytes :=
  utf8Line (" ".intercalate e.args)

/-- The path that the file name means. -/
def path (ctx : Context) (e : Echo) : Path :=
  ctx.resolve (Path.ofString e.file)

/-- What is in a file afterwards that held something before. -/
def leaves (old : Bytes) (e : Echo) : Bytes :=
  (if e.append then old else []) ++ e.line

variable {ctx : Context} {w : World} {e : Echo} {spot : Spot} {old : Bytes}

/-- A redirected `echo` succeeds, leaves the session where it is and writes its line to the file that it names. -/
theorem run_wrote (programs : Programs) (hlinked : w.files.Linked)
    (htarget : w.files.Target (e.path ctx).toString spot old) :
    ∃ w', (e.stage.run programs ctx).run w = ((.status Builtin.success, ctx), w') ∧
      w.files.Wrote spot (e.leaves old) w'.files ∧ w'.out = w.out ∧ w'.err = w.err := by
  obtain ⟨streams', w', h, hwrite, hwrites⟩ := Streams.write_run (.ofStage e.stage ctx.directory false)
    rfl rfl rfl hlinked htarget e.line
  have hinput : Job.run (Streams.stdinHandle (.ofStage e.stage ctx.directory false)) w =
      ((.ok none, .ofStage e.stage ctx.directory false), w) := rfl
  have hbody : Job.run (Builtin.body .echo e.args ctx (.ofStage e.stage ctx.directory false)) w =
      ((.ok (.status Builtin.success, ctx), streams'), w') := by
    unfold Builtin.body Builtin.runEcho
    simp only [bind_assoc]
    exact run_bind_ok hwrite
  have hrun : Job.run (Builtin.run .echo e.args ctx (.ofStage e.stage ctx.directory false)) w =
      ((.ok (.status Builtin.success, ctx), streams'), w') := by
    unfold Builtin.run
    rw [run_bind_ok (run_attempt hinput)]
    dsimp only
    rw [run_bind_ok (run_attempt hbody)]
    rfl
  have hwork : (e.stage.work programs ctx).run w = ((.ok (.status Builtin.success, ctx), streams'), w') := by
    have hbegin : (e.stage.begin programs ctx).run w = (.builtin .echo, w) := by
      simp [Stage.begin, Lookup.find, Builtin.ofName?, Stage.beginAs, stage]
    simp only [Stage.work, Job.run_bind, hbegin, Stage.proceed]
    rw [show e.stage.args = e.args from rfl, hrun]
    rfl
  have hview := World.closeAll_view streams'.owned w'
  rw [Stage.run_eq_work, hwork]
  refine ⟨_, rfl, ?_, hview.out.trans hwrites.out, hview.err.trans hwrites.err⟩
  rw [hview.files]
  exact hwrites.files

end Echo

end Conch
