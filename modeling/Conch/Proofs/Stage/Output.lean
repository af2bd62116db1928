-- SUMMARY: Writing to the streams of a stage in a world: what is not refused reaches the outlet of its stream as a whole.
import Conch.Proofs.Stage.Uses
import Conch.Proofs.System.Outlets
import Conch.Proofs.System.Running

/-!
# Writing to streams

A stream that takes everything has an outlet. `Streams.Stands` tells how far it is: its
file is not opened yet, or it is open and feeds the outlet, or the stream has no file and
is the interpreter's own. Writing to it adds to the outlet, which a file begins with what
it held before if it is continued, and with nothing if it is overwritten.
-/

namespace Conch

open StageM FileSystem World

/-- Where a stream goes that has no file. -/
def Streams.sink (σ : Streams) : Stream → Sink
  | .stdin => .closed
  | .stdout => if σ.toPipe then .pipe else .out
  | .stderr => .err

namespace Stream

/-- Write to a stream. -/
def put (st : Stream) (data : Bytes) : StageM Unit := do
  match ← st.handle with
  | some h => Streams.writeTo (.file h) data
  | none =>
    let streams ← get
    Streams.writeTo (streams.sink st) data

theorem write_eq_put (data : Bytes) : Streams.write data = put .stdout data := rfl

theorem error_eq_put (text : String) : Streams.error text = put .stderr (utf8Line text) := rfl

end Stream

namespace Streams

variable {base σ : Streams} {w : World} {path : String} {h : Handle} {o : Outlet} {content old : Bytes}

/-- Nothing that a file has refused is left to be written to it. -/
def SettledAt (σ : Streams) (h : Handle) : Prop :=
  ∀ e ∈ σ.unwritten, e.1 = h → e.2 = []

/-- No more is left to be written than before. -/
def NoneLeft (σ after : Streams) : Prop :=
  ∀ e ∈ after.unwritten, e.2 = [] ∨ e ∈ σ.unwritten

theorem SettledAt.lookup (hsettled : σ.SettledAt h) : (σ.unwritten.lookup h).getD [] = [] := by
  cases hlookup : σ.unwritten.lookup h with
  | none => rfl
  | some data =>
    obtain ⟨before, after, hsplit, -⟩ := List.lookup_eq_some_iff.1 hlookup
    exact hsettled (h, data) (by simp [hsplit]) rfl

theorem Unused.settledAt (hunused : σ.Unused) (h : Handle) : σ.SettledAt h := by
  unfold SettledAt
  rw [hunused.settled]
  exact List.forall_mem_nil _

theorem NoneLeft.refl (σ : Streams) : σ.NoneLeft σ := fun _ he => .inr he

theorem NoneLeft.trans {middle after : Streams} (h : σ.NoneLeft middle) (h' : middle.NoneLeft after) :
    σ.NoneLeft after := by
  intro e he
  rcases h' e he with hnone | hmem
  · exact .inl hnone
  · exact h e hmem

theorem SettledAt.of_noneLeft {after : Streams} (hsettled : σ.SettledAt h) (hleft : σ.NoneLeft after) :
    after.SettledAt h := by
  intro e he heq
  rcases hleft e he with hnone | hmem
  · exact hnone
  · exact hsettled e hmem heq

/-- Once a file has taken what it had refused before, nothing is left for it. -/
theorem noneLeft_withUnwritten (σ : Streams) (h : Handle) (data : Bytes) :
    σ.NoneLeft ((σ.withUnwritten h data).withUnwritten h []) := by
  intro e he
  simp only [withUnwritten, List.filter_cons, decide_not, decide_true, Bool.not_true, Bool.false_eq_true, if_false,
    List.mem_cons, List.mem_filter] at he
  rcases he with rfl | ⟨⟨hmem, -⟩, -⟩
  · exact .inl rfl
  · exact .inr hmem

theorem noneLeft_withUnwritten_nil (σ : Streams) (h : Handle) : σ.NoneLeft (σ.withUnwritten h []) := by
  intro e he
  simp only [withUnwritten, List.mem_cons, List.mem_filter] at he
  rcases he with rfl | ⟨hmem, -⟩
  · exact .inl rfl
  · exact .inr hmem

/-! ## One file -/

theorem runs_setUnwritten {Q : Except Fault PUnit → Streams → World → Prop} {data : Bytes} :
    runs (setUnwritten h data) Q σ w ↔ Q (.ok ⟨⟩) (σ.withUnwritten h data) w :=
  runs_modify

theorem runs_setUnwritten_bind {α : Type} {Q : Except Fault α → Streams → World → Prop} {data : Bytes}
    {f : PUnit → StageM α} : runs (setUnwritten h data >>= f) Q σ w ↔ runs (f ⟨⟩) Q (σ.withUnwritten h data) w :=
  runs_modify_bind

theorem writeNow_runs (hfeeds : w.Feeds path h o content) (hlinked : w.files.Linked) (data : Bytes) :
    runs (writeNow (.file h) data) (fun result after w' => result = .ok () ∧ after = σ ∧
      w'.Feeds path h o (content ++ data) ∧ Fed o data w w') σ w := by
  obtain ⟨w', hwrite, hfeeds', hfed⟩ := hfeeds.write hlinked data
  unfold writeNow
  rw [runs_call_bind]
  simp only [World.perform, hwrite]
  exact (runs_pure _).2 ⟨rfl, rfl, hfeeds', hfed⟩

/-- The interpreter's own streams take everything. -/
theorem writeNow_console_runs (c : Console) (data : Bytes) :
    runs (writeNow c.sink data) (fun result after w' => result = .ok () ∧ after = σ ∧ Fed (.console c) data w w') σ w := by
  have hfed : Fed (.console c) data w (w.pour (.console c) data) :=
    fed_of_nudge (nudge_of_same rfl rfl) (poured_pour w _ data)
  unfold writeNow
  rw [runs_call_bind]
  simp only [World.perform, write_console]
  exact (runs_pure _).2 ⟨rfl, rfl, hfed⟩

/-- Data of any length reach a file as a whole, and nothing of them is left. -/
theorem writeFile_runs (hfeeds : w.Feeds path h o content) (hlinked : w.files.Linked) (hsettled : σ.SettledAt h)
    (data : Bytes) :
    runs (writeFile h data) (fun result after w' => result = .ok () ∧ σ.Settles after ∧ σ.NoneLeft after ∧
      w'.Feeds path h o (content ++ data) ∧ Fed o data w w') σ w := by
  unfold writeFile
  refine runs_bind (writeNow_runs hfeeds hlinked []) ?_ (by rintro fault after w' ⟨⟨⟩, -⟩)
  rintro - after w₁ ⟨-, rfl, hfeeds₁, hfed₁⟩
  have hlinked₁ := hfed₁.beside.linked hlinked
  rw [List.append_nil] at hfeeds₁
  rw [runs_get_bind]
  dsimp only
  rw [hsettled.lookup]
  split
  · rw [runs_setUnwritten_bind]
    refine runs_bind (writeNow_runs hfeeds₁ hlinked₁ _) ?_ (by rintro fault after w' ⟨⟨⟩, -⟩)
    rintro - after w₂ ⟨-, rfl, hfeeds₂, hfed₂⟩
    rw [runs_setUnwritten]
    exact ⟨rfl, ⟨_, rfl⟩, noneLeft_withUnwritten _ h _, hfeeds₂, hfed₁.trans hfed₂⟩
  · refine runs_bind (writeNow_runs hfeeds₁ hlinked₁ []) ?_ (by rintro fault after w' ⟨⟨⟩, -⟩)
    rintro - after w₂ ⟨-, rfl, hfeeds₂, hfed₂⟩
    rw [List.append_nil] at hfeeds₂
    rw [runs_setUnwritten_bind]
    refine runs_mono ?_ (writeNow_runs hfeeds₂ (hfed₂.beside.linked hlinked₁) data)
    rintro result after w₃ ⟨hresult, rfl, hfeeds₃, hfed₃⟩
    exact ⟨hresult, ⟨_, rfl⟩, noneLeft_withUnwritten_nil _ h, hfeeds₃, (hfed₁.trans hfed₂).trans hfed₃⟩

/-! ## Opening -/

/-- A path that lands at an outlet does not lead to a directory. -/
theorem not_dir_of_lands (hlands : w.files.Lands path o old) : w.files.stat root path true ≠ .ok .dir := by
  cases hlands with
  | stored htarget => exact htarget.not_dir
  | device hnul hleads hd ho => simp [stat, find, locate_of_writingSpot hleads, hd, Node.kind]

theorem no_nul_of_lands (hlands : w.files.Lands path o old) : hasNul path = false := by
  cases hlands with
  | stored htarget => exact htarget.no_nul
  | device hnul => exact hnul

/-- A file that lands at an outlet is opened and owned, and feeds the outlet. -/
theorem openOwned_runs {name : String} (append : Bool) (hlinked : w.files.Linked)
    (hlands : w.files.Lands (σ.pathOf name) o old) :
    runs (openOwned name (if append then .append else .truncate)) (fun result after w' =>
      result = .ok w.opened.size ∧ after = { σ with owned := w.opened.size :: σ.owned } ∧
      w'.Feeds (σ.pathOf name) w.opened.size o (if append then old else []) ∧ Fed o [] w w') σ w := by
  unfold openOwned
  rw [runs_get_bind]
  dsimp only
  rw [show ((σ.directory.join (Path.ofString name)).normalize).toString = σ.pathOf name from rfl]
  generalize σ.pathOf name = path at hlands ⊢
  obtain ⟨w₁, hopen, hfeeds, hfed⟩ := hlands.openPath hlinked append
  have hkind : w.files.stat root path true = .ok .dir → False := not_dir_of_lands hlands
  rw [if_neg (by simp [no_nul_of_lands hlands]), runs_call_bind]
  -- The branch of the match follows from `hkind`.
  simp only [World.perform]
  rw [runs_call_bind]
  simp only [World.perform, hopen]
  cases append with
  | false => exact runs_set_bind.2 ((runs_pure _).2 ⟨rfl, rfl, hfeeds, hfed⟩)
  | true =>
    obtain ⟨w₂, hseek, hfeeds₂, hfed₂⟩ := hfeeds.seekEnd (hfed.beside.linked hlinked)
    simp only [if_true]
    rw [runs_call_bind]
    simp only [World.perform, hseek]
    exact runs_set_bind.2 ((runs_pure _).2 ⟨rfl, rfl, hfeeds₂, hfed.trans hfed₂⟩)

/-! ## How a stream stands -/

/-- Whether the file of a stream is continued. -/
def appends (σ : Streams) : Stream → Bool
  | .stdout => σ.redirects.append
  | _ => false

/-- The outlet of a stream that has no file. -/
def inherited (σ : Streams) : Stream → Outlet
  | .stdin => .void
  | .stdout => .console (if σ.toPipe then .pipe else .out)
  | .stderr => .console .err

theorem SameSetup.inherited {after : Streams} (h : σ.SameSetup after) (st : Stream) :
    after.inherited st = σ.inherited st := by
  cases st <;> simp only [Streams.inherited, h.toPipe]

/-- A stream that has no file goes to the console. -/
theorem exists_console {st : Stream} (hst : st ≠ .stdin) (σ : Streams) :
    ∃ c : Console, σ.inherited st = .console c ∧ σ.sink st = c.sink := by
  cases st with
  | stdin => exact absurd rfl hst
  | stdout =>
    refine ⟨if σ.toPipe then .pipe else .out, rfl, ?_⟩
    cases h : σ.toPipe <;> simp [sink, h, Console.sink]
  | stderr => exact ⟨.err, rfl, rfl⟩

/-- What is in a file that held something, once it is open. -/
def begun (σ : Streams) (st : Stream) (old : Bytes) : Option Bytes → Bytes
  | none => if σ.appends st then old else []
  | some content => content

/-- What was got by asking for a stream that takes everything. -/
inductive Faces (base σ : Streams) (w : World) (st : Stream) (o : Outlet) (content : Bytes) : Option Handle → Prop
  | inherited (hfile : base.file? st = none) (ho : o = base.inherited st) : Faces base σ w st o content none
  | file {name : String} {h : Handle} (hfile : base.file? st = some name) (hhandle : σ.handle? st = some h)
      (hsound : st = .stderr → σ.stderrFailed = false) (hfeeds : w.Feeds (base.pathOf name) h o content) :
    Faces base σ w st o content (some h)

/-- How far a stream is that takes everything, and what is in its file if that was opened. -/
inductive Stands (base σ : Streams) (w : World) (st : Stream) (o : Outlet) (old : Bytes) : Option Bytes → Prop
  | waiting {name : String} (hwaits : σ.Waits st name) (hfile : base.file? st = some name)
      (hlands : w.files.Lands (base.pathOf name) o old) : Stands base σ w st o old none
  | inherited (hfile : base.file? st = none) (ho : o = base.inherited st) : Stands base σ w st o old none
  | asked {handle : Option Handle} {content : Bytes} (hfaces : Faces base σ w st o content handle) :
    Stands base σ w st o old (some content)

/-- Nothing about the other streams is different, and no more is left to be written. -/
structure OnlyAt (st : Stream) (σ after : Streams) : Prop where
  setup : σ.SameSetup after
  others : ∀ st', st' ≠ st → after.handle? st' = σ.handle? st'
  sound : after.stderrFailed = σ.stderrFailed
  left : σ.NoneLeft after

variable {after : Streams} {st : Stream} {written : Option Bytes}

theorem OnlyAt.refl (st : Stream) (σ : Streams) : OnlyAt st σ σ :=
  ⟨.rfl, fun _ _ => rfl, rfl, .refl σ⟩

theorem OnlyAt.trans {middle : Streams} (h : OnlyAt st σ middle) (h' : OnlyAt st middle after) : OnlyAt st σ after :=
  ⟨h.setup.trans h'.setup, fun st' hne => (h'.others st' hne).trans (h.others st' hne), h'.sound.trans h.sound,
    h.left.trans h'.left⟩

theorem onlyAt_owning (h : Handle) : OnlyAt st σ (σ.owning h st) := by
  refine ⟨sameSetup_owning h st, fun st' hne => handle?_owning_of_ne h hne, stderrFailed_owning h, ?_⟩
  cases st <;> exact .refl σ

theorem onlyAt_settles (hsettles : σ.Settles after) (hleft : σ.NoneLeft after) : OnlyAt st σ after :=
  ⟨hsettles.sameSetup, fun st' _ => hsettles.handle? st', hsettles.stderrFailed, hleft⟩

/-- The path of the file of a stream. -/
def FileAt (base : Streams) (st : Stream) (p : String) : Prop :=
  ∃ name, base.file? st = some name ∧ p = base.pathOf name

/-- What a stream is, that takes everything, nothing else can change that is done elsewhere. -/
theorem Stands.beside {P : String → Prop} {w' : World} (h : Stands base σ w st o old written)
    (hsetup : base.SameSetup after) (hhandle : after.handle? st = σ.handle? st)
    (hsound : st = .stderr → after.stderrFailed = σ.stderrFailed) (hbeside : Beside P w w')
    (hclear : ∀ p, base.FileAt st p → Clear P p writing w) : Stands base after w' st o old written := by
  cases h with
  | inherited hfile ho => exact .inherited hfile ho
  | waiting hwaits hfile hlands =>
    have hwaits' : after.Waits st _ := ⟨(hsetup.file? st).trans hfile, hhandle.trans hwaits.handle,
      fun hst => (hsound hst).trans (hwaits.sound hst)⟩
    exact .waiting hwaits' hfile (hlands.beside hbeside (hclear _ ⟨_, hfile, rfl⟩))
  | asked hfaces =>
    cases hfaces with
    | inherited hfile ho => exact .asked (.inherited hfile ho)
    | file hfile hopen hsound' hfeeds =>
      exact .asked (.file hfile (hhandle.trans hopen) (fun hst => (hsound hst).trans (hsound' hst))
        (hfeeds.beside hbeside (hclear _ ⟨_, hfile, rfl⟩)))

/-- The only file in which a stream can change something is its own. -/
theorem Stands.fileAt (h : Stands base σ w st o old written) {p : String} (hp : o.Writes p) : base.FileAt st p := by
  have hinherited : ∀ p, ¬ (base.inherited st).Writes p := by
    intro p hp
    cases st <;> cases hp
  cases h with
  | inherited hfile ho => exact absurd (ho ▸ hp) (hinherited p)
  | waiting hwaits hfile hlands =>
    cases hlands with
    | stored htarget =>
      cases hp
      exact ⟨_, hfile, rfl⟩
    | device _ _ _ ho =>
      cases hp
      exact absurd ho Device.outlet?_ne_stored
  | asked hfaces =>
    cases hfaces with
    | inherited hfile ho => exact absurd (ho ▸ hp) (hinherited p)
    | file hfile hopen hsound hfeeds =>
      cases hfeeds with
      | stored =>
        cases hp
        exact ⟨_, hfile, rfl⟩
      | device _ _ _ ho =>
        cases hp
        exact absurd ho Device.outlet?_ne_stored

/-- What is in the stored file of a stream that was opened. -/
theorem Stands.fetch (h : Stands base σ w st (.stored path) old (some content)) :
    w.files.fetch root path = .ok content := by
  cases h with
  | asked hfaces =>
    cases hfaces with
    | inherited hfile hinherited => cases st <;> cases hinherited
    | file hfile hopen hsound hfeeds =>
      cases hfeeds with
      | stored hholds htarget hend => exact htarget.fetch rfl
      | device _ _ _ hd => exact absurd hd Device.outlet?_ne_stored

/-- A stream waits for its file, or there is something to be got when it is asked for. -/
theorem Stands.waits_or_faces (h : Stands base σ w st o old written) :
    (∃ name, written = none ∧ σ.Waits st name ∧ base.file? st = some name ∧
      w.files.Lands (base.pathOf name) o old) ∨
      ∃ handle, Faces base σ w st o (base.begun st old written) handle := by
  cases h with
  | waiting hwaits hfile hlands => exact .inl ⟨_, rfl, hwaits, hfile, hlands⟩
  | inherited hfile ho => exact .inr ⟨none, .inherited hfile ho⟩
  | asked hfaces => exact .inr ⟨_, hfaces⟩

theorem Faces.handle?_eq {handle : Option Handle} (h : Faces base σ w st o content handle) {g : Handle}
    (hg : handle = some g) : σ.handle? st = some g := by
  cases h with
  | inherited => cases hg
  | file hfile hhandle => exact hhandle.trans hg

/-- Asking once more gives the same. -/
theorem Faces.runs_handle {handle : Option Handle} (h : Faces base σ w st o content handle)
    (hsetup : base.SameSetup σ) {Q : Except Fault (Option Handle) → Streams → World → Prop} :
    runs st.handle Q σ w ↔ Q (.ok handle) σ w := by
  have hname := hsetup.file? st
  cases h with
  | inherited hfile ho =>
    rw [hfile] at hname
    cases st with
    | stdin => simp only [Stream.handle, stdinHandle, runs_get_bind, show σ.redirects.stdin = none from hname, runs_pure]
    | stdout =>
      simp only [Stream.handle, stdoutHandle, runs_get_bind, show σ.redirects.stdout = none from hname, runs_pure]
    | stderr =>
      simp only [Stream.handle, stderrHandle, runs_get_bind, show σ.redirects.stderr = none from hname, runs_pure]
  | @file name h hfile hhandle hsound hfeeds =>
    rw [hfile] at hname
    cases st with
    | stdin =>
      simp only [Stream.handle, stdinHandle, runs_get_bind, show σ.redirects.stdin = some name from hname,
        show σ.stdin = some h from hhandle, runs_pure]
    | stdout =>
      simp only [Stream.handle, stdoutHandle, runs_get_bind, show σ.redirects.stdout = some name from hname,
        show σ.stdout = some h from hhandle, runs_pure]
    | stderr =>
      simp only [Stream.handle, stderrHandle, runs_get_bind, show σ.redirects.stderr = some name from hname,
        show σ.stderr = some h from hhandle, hsound rfl, Bool.false_eq_true, if_false, runs_pure]

/-- A stream that waits for its file gets it, if that can be opened. -/
theorem Waits.runs_handle {name : String} {R : World → Prop} (hwaits : σ.Waits st name)
    (hopen : runs (openOwned name (σ.mode st)) (fun result after w' =>
      result = .ok h ∧ after = { σ with owned := h :: σ.owned } ∧ R w') σ w) :
    runs st.handle (fun result after w' => result = .ok (some h) ∧ after = σ.owning h st ∧ R w') σ w := by
  obtain ⟨hname, hnone, hsound⟩ := hwaits
  cases st with
  | stdin =>
    simp only [Stream.handle, stdinHandle, runs_get_bind, show σ.redirects.stdin = some name from hname,
      show σ.stdin = none from hnone]
    refine runs_bind hopen ?_ (by rintro fault after w' ⟨⟨⟩, -⟩)
    rintro _ after w' ⟨⟨⟩, rfl, hR⟩
    exact runs_modify_bind.2 ((runs_pure _).2 ⟨rfl, rfl, hR⟩)
  | stdout =>
    simp only [Stream.handle, stdoutHandle, runs_get_bind, show σ.redirects.stdout = some name from hname,
      show σ.stdout = none from hnone]
    refine runs_bind hopen ?_ (by rintro fault after w' ⟨⟨⟩, -⟩)
    rintro _ after w' ⟨⟨⟩, rfl, hR⟩
    exact runs_modify_bind.2 ((runs_pure _).2 ⟨rfl, rfl, hR⟩)
  | stderr =>
    simp only [Stream.handle, stderrHandle, runs_get_bind, show σ.redirects.stderr = some name from hname,
      show σ.stderr = none from hnone, hsound rfl, Bool.false_eq_true, if_false]
    refine runs_attempt_bind hopen ?_
    rintro _ after w' ⟨rfl, rfl, hR⟩
    exact runs_modify_bind.2 ((runs_pure _).2 ⟨rfl, rfl, hR⟩)

/-- A stream that takes everything can be asked for. Its file is opened if it waits for that. -/
theorem handle_runs (hst : st ≠ .stdin) (hsetup : base.SameSetup σ) (hlinked : w.files.Linked)
    (hstands : Stands base σ w st o old written) :
    runs st.handle (fun result after w' => ∃ handle, result = .ok handle ∧
      Faces base after w' st o (base.begun st old written) handle ∧ OnlyAt st σ after ∧ Fed o [] w w' ∧
      ∀ h, handle = some h → σ.handle? st = some h ∨ h = w.opened.size) σ w := by
  rcases hstands.waits_or_faces with ⟨name, rfl, hwaits, hfile, hlands⟩ | ⟨handle, hfaces⟩
  · rw [← hsetup.pathOf] at hlands
    have hmode : base.mode st = if base.appends st then .append else .truncate := by
      cases st with
      | stdin => exact absurd rfl hst
      | stdout => rfl
      | stderr => rfl
    have hopen := openOwned_runs (base.appends st) hlinked hlands
    rw [← hmode, ← hsetup.mode] at hopen
    refine runs_mono ?_ (hwaits.runs_handle hopen)
    rintro _ after w' ⟨rfl, rfl, hfeeds, hfed⟩
    rw [hsetup.pathOf] at hfeeds
    have hsound : st = .stderr → (σ.owning w.opened.size st).stderrFailed = false := fun hst =>
      (stderrFailed_owning _).trans (hwaits.sound hst)
    refine ⟨_, rfl, .file hfile (handle?_owning _) hsound hfeeds, onlyAt_owning _, hfed, ?_⟩
    rintro _ ⟨⟩
    exact .inr rfl
  · rw [hfaces.runs_handle hsetup]
    exact ⟨handle, rfl, hfaces, .refl st σ, .refl o w, fun h hh => .inl (hfaces.handle?_eq hh)⟩

/-- What is written to a stream that takes everything is added to its outlet. -/
theorem put_runs (hst : st ≠ .stdin) (hsetup : base.SameSetup σ) (hlinked : w.files.Linked)
    (hstands : Stands base σ w st o old written)
    (hsettled : ∀ h, σ.handle? st = some h ∨ h = w.opened.size → σ.SettledAt h) (data : Bytes) :
    runs (st.put data) (fun result after w' => result = .ok () ∧
      Stands base after w' st o old (some (base.begun st old written ++ data)) ∧ OnlyAt st σ after ∧
      Fed o data w w') σ w := by
  unfold Stream.put
  refine runs_bind (handle_runs hst hsetup hlinked hstands) ?_ (by rintro fault after w' ⟨_, ⟨⟩, -⟩)
  rintro handle after w₁ ⟨_, ⟨⟩, hfaces, honly, hfed, hhandle⟩
  have hlinked₁ := hfed.beside.linked hlinked
  cases hfaces with
  | inherited hfile ho =>
    subst ho
    obtain ⟨c, hc, hsink⟩ := exists_console hst after
    have hsame : after.inherited st = base.inherited st := (hsetup.trans honly.setup).inherited st
    have hwrite : writeTo c.sink data = writeNow c.sink data := by cases c <;> rfl
    rw [runs_get_bind, hsink, hwrite, ← hsame, hc]
    refine runs_mono ?_ (writeNow_console_runs c data)
    rintro result last w₂ ⟨rfl, rfl, hfed₂⟩
    rw [← hsame, hc] at hfed
    exact ⟨rfl, .asked (.inherited hfile (hc.symm.trans hsame)), honly, hfed.trans hfed₂⟩
  | @file name h hfile hown hsound hfeeds =>
    have hsettled₁ : after.SettledAt h := (hsettled h (hhandle h rfl)).of_noneLeft honly.left
    refine runs_mono ?_ (writeFile_runs hfeeds hlinked₁ hsettled₁ data)
    rintro result last w₂ ⟨rfl, hsettles, hleft, hfeeds₂, hfed₂⟩
    have honly₂ : OnlyAt st after last := onlyAt_settles hsettles hleft
    refine ⟨rfl, .asked (.file hfile ((hsettles.handle? st).trans hown) ?_ hfeeds₂), honly.trans honly₂, hfed.trans hfed₂⟩
    exact fun hst => honly₂.sound.trans (hsound hst)

/-! ## Streams that may refuse

Nothing is known here of what the file of a stream is. What is done to it is done at its path. -/

/-- The paths at which opening a file in some mode may change something. -/
def Changes (path : String) (mode : Mode) (p : String) : Prop :=
  mode ≠ .read ∧ p = path

/-- What opening a file does, whether or not it succeeds: it changes nothing elsewhere and tells nothing. -/
structure OpenedAt (σ : Streams) (path : String) (mode : Mode) (w : World) (result : Except Fault Handle)
    (after : Streams) (w' : World) : Prop where
  kept : after = σ.keeping result
  beside : Beside (Changes path mode) w w'
  silent : ∀ c, w'.got c = w.got c
  held : ∀ h, result = .ok h → mode ≠ .read → ∃ f, w'.Holds path h f

theorem openOwned_elsewhere {name : String} {mode : Mode} (hlinked : w.files.Linked) (hmode : mode ≠ .append) :
    runs (openOwned name mode) (OpenedAt σ (σ.pathOf name) mode w) σ w := by
  have hfailed : ∀ fault : Fault, OpenedAt σ (σ.pathOf name) mode w (.error fault) σ w :=
    fun fault => ⟨rfl, .refl, fun _ => rfl, nofun⟩
  unfold openOwned
  rw [runs_get_bind]
  dsimp only
  rw [show ((σ.directory.join (Path.ofString name)).normalize).toString = σ.pathOf name from rfl]
  generalize σ.pathOf name = path at hfailed ⊢
  split
  · exact runs_throw_bind.2 (hfailed _)
  rw [runs_call_bind]
  simp only [World.perform]
  split
  · exact runs_throw_bind.2 (hfailed _)
  rw [runs_call_bind]
  simp only [World.perform]
  rcases hopen : w.openPath root path mode with ⟨reply, w₁⟩
  cases reply with
  | error cause =>
    have hsame : w₁ = w := by
      unfold World.openPath at hopen
      split at hopen
      · cases hopen
        rfl
      · cases hopen
    subst hsame
    exact (runs_throw _).2 (hfailed _)
  | ok h =>
    dsimp only
    refine runs_set_bind.2 ((runs_pure _).2 ⟨rfl, ?_, fun c => got_openPath hopen c, ?_⟩)
    · by_cases hread : mode = .read
      · subst hread
        exact .single (openPath_read hopen)
      · exact .single ((openPath_nudge hlinked hread hopen).1.mono fun p hp => ⟨hread, hp⟩)
    · rintro _ ⟨⟩ hread
      exact (openPath_nudge hlinked hread hopen).2

/-- What a file refuses is left for this file only. -/
def LeftFor (h : Handle) (σ after : Streams) : Prop :=
  ∀ e ∈ after.unwritten, e.1 = h ∨ e ∈ σ.unwritten

/-- All that is done is done to an open file, which may refuse it. -/
def WorksAt {α : Type} (path : String) (h : Handle) (x : StageM α) : Prop :=
  ∀ (σ : Streams) (w : World), (∃ f, w.Holds path h f) →
    runs x (fun _ after w' => σ.Settles after ∧ LeftFor h σ after ∧ Beside (· = path) w w' ∧
      ∃ f, w'.Holds path h f) σ w

section WorksAt

variable {α β : Type}

theorem worksAt_bind {x : StageM β} {f : β → StageM α} (hx : WorksAt path h x) (hf : ∀ b, WorksAt path h (f b)) :
    WorksAt path h (x >>= f) := by
  intro σ w hheld
  refine runs_bind (hx σ w hheld) ?_ fun _ _ _ hafter => hafter
  rintro b middle w₁ ⟨hsettles, hleft, hbeside, hheld₁⟩
  refine runs_mono ?_ (hf b middle w₁ hheld₁)
  rintro result after w₂ ⟨hsettles₂, hleft₂, hbeside₂, hheld₂⟩
  refine ⟨hsettles.trans hsettles₂, fun e he => ?_, hbeside.trans hbeside₂, hheld₂⟩
  exact (hleft₂ e he).elim .inl fun hmem => hleft e hmem

theorem worksAt_get_bind {f : Streams → StageM α} (hf : ∀ streams, WorksAt path h (f streams)) :
    WorksAt path h (get >>= f) :=
  fun σ w hheld => runs_get_bind.2 (hf σ σ w hheld)

theorem worksAt_writeNow (data : Bytes) : WorksAt path h (writeNow (.file h) data) := by
  rintro σ w ⟨f, hholds⟩
  obtain ⟨hnudge, hheld⟩ := hholds.write data
  unfold writeNow
  rw [runs_call_bind]
  split
  · exact (runs_pure _).2 ⟨.refl, fun _ => .inr, .single hnudge, hheld⟩
  · exact (runs_throw _).2 ⟨.refl, fun _ => .inr, .single hnudge, hheld⟩
  · exact (runs_throw _).2 ⟨.refl, fun _ => .inr, .single hnudge, hheld⟩

theorem worksAt_setUnwritten (data : Bytes) : WorksAt path h (setUnwritten h data) := by
  intro σ w hheld
  rw [runs_setUnwritten]
  refine ⟨⟨_, rfl⟩, fun e he => ?_, .refl, hheld⟩
  simp only [withUnwritten, List.mem_cons, List.mem_filter] at he
  rcases he with rfl | ⟨hmem, -⟩
  · exact .inl rfl
  · exact .inr hmem

theorem worksAt_writeFile (data : Bytes) : WorksAt path h (writeFile h data) := by
  refine worksAt_bind (worksAt_writeNow _) fun _ => worksAt_get_bind fun streams => ?_
  dsimp only
  split
  · exact worksAt_bind (worksAt_setUnwritten _) fun _ =>
      worksAt_bind (worksAt_writeNow _) fun _ => worksAt_setUnwritten _
  · exact worksAt_bind (worksAt_writeNow _) fun _ =>
      worksAt_bind (worksAt_setUnwritten _) fun _ => worksAt_writeNow _

end WorksAt

/-- The file for diagnostics, if it was opened, is open. -/
def Guarded (base σ : Streams) (w : World) : Prop :=
  ∀ h, σ.stderr = some h → ∃ name f, base.file? .stderr = some name ∧ w.Holds (base.pathOf name) h f

/-- What is no matter of the output: it touches the file for diagnostics at most, and only for this file something
    is left to be written. -/
structure BesideOutput (base σ : Streams) (w : World) (after : Streams) (w' : World) : Prop where
  setup : base.SameSetup after
  stdout : after.stdout = σ.stdout
  kept : ∀ h, σ.stderr = some h → after.stderr = some h
  left : ∀ e ∈ after.unwritten, after.stderr = some e.1 ∨ e ∈ σ.unwritten
  guarded : Guarded base after w'
  beside : Beside (base.FileAt .stderr) w w'

theorem BesideOutput.refl (hsetup : base.SameSetup σ) (hguarded : Guarded base σ w) : BesideOutput base σ w σ w :=
  ⟨hsetup, rfl, fun _ => id, fun _ => .inr, hguarded, .refl⟩

theorem BesideOutput.trans {middle : Streams} {w₁ w₂ : World} (h : BesideOutput base σ w middle w₁)
    (h' : BesideOutput base middle w₁ after w₂) : BesideOutput base σ w after w₂ := by
  refine ⟨h'.setup, h'.stdout.trans h.stdout, fun g hg => h'.kept g (h.kept g hg), fun e he => ?_, h'.guarded,
    h.beside.trans h'.beside⟩
  rcases h'.left e he with hown | hmem
  · exact .inl hown
  · exact (h.left e hmem).imp (h'.kept e.1) id

/-- Asking for the input changes nothing about other files and streams. -/
theorem stdinHandle_runs (hlinked : w.files.Linked) :
    runs stdinHandle (fun _ after w' => (after = σ ∨ ∃ h, after = σ.owning h .stdin) ∧ Beside (fun _ => False) w w' ∧
      ∀ c, w'.got c = w.got c) σ w := by
  unfold stdinHandle
  rw [runs_get_bind]
  split
  · exact (runs_pure _).2 ⟨.inl rfl, .refl, fun _ => rfl⟩
  · exact (runs_pure _).2 ⟨.inl rfl, .refl, fun _ => rfl⟩
  · refine runs_bind (openOwned_elsewhere hlinked nofun) ?_ ?_
    · rintro h _ w' ⟨rfl, hbeside, hgot, -⟩
      refine runs_modify_bind.2 ((runs_pure _).2 ⟨.inr ⟨h, rfl⟩, ?_, hgot⟩)
      exact hbeside.mono fun p hp => hp.1 rfl
    · rintro fault _ w' ⟨rfl, hbeside, hgot, -⟩
      exact ⟨.inl rfl, hbeside.mono fun p hp => hp.1 rfl, hgot⟩

theorem stdinHandle_beside (hsetup : base.SameSetup σ) (hlinked : w.files.Linked) (hguarded : Guarded base σ w) :
    runs stdinHandle (fun _ after w' => BesideOutput base σ w after w') σ w := by
  refine runs_mono ?_ (stdinHandle_runs hlinked)
  rintro result after w' ⟨hafter, hbeside, -⟩
  have hsame : after.stderr = σ.stderr ∧ after.stdout = σ.stdout ∧ after.unwritten = σ.unwritten ∧
      σ.SameSetup after := by
    rcases hafter with rfl | ⟨h, rfl⟩
    · exact ⟨rfl, rfl, rfl, .rfl⟩
    · exact ⟨rfl, rfl, rfl, sameSetup_owning h .stdin⟩
  obtain ⟨herr, hout, hleft, hafterSetup⟩ := hsame
  refine ⟨hsetup.trans hafterSetup, hout, fun h hh => herr.trans hh, ?_, ?_, hbeside.mono nofun⟩
  · rw [hleft]
    exact fun e he => .inr he
  · intro h hh
    obtain ⟨name, f, hfile, hholds⟩ := hguarded h (herr.symm.trans hh)
    exact ⟨name, f, hfile, hbeside.holds ⟨hlinked, nofun⟩ hholds⟩

/-- Asking for the file for diagnostics touches that file only. -/
theorem stderrHandle_beside (hsetup : base.SameSetup σ) (hlinked : w.files.Linked) (hguarded : Guarded base σ w) :
    runs stderrHandle (fun result after w' => BesideOutput base σ w after w' ∧
      ∀ h, result = .ok (some h) → after.stderr = some h) σ w := by
  unfold stderrHandle
  rw [runs_get_bind]
  split
  · exact (runs_pure _).2 ⟨.refl hsetup hguarded, nofun⟩
  rename_i name hname
  have hfile : base.file? .stderr = some name := (hsetup.file? .stderr).symm.trans hname
  split
  · exact (runs_pure _).2 ⟨.refl hsetup hguarded, nofun⟩
  split
  · rename_i h hopen
    refine (runs_pure _).2 ⟨.refl hsetup hguarded, ?_⟩
    rintro _ ⟨⟩
    exact hopen
  rename_i hnone
  have hpath : σ.pathOf name = base.pathOf name := hsetup.pathOf name
  refine runs_attempt_bind (openOwned_elsewhere hlinked nofun) ?_
  rintro result _ w' ⟨rfl, hbeside, -, hholds⟩
  rw [hpath] at hbeside hholds
  have hbeside' : Beside (base.FileAt .stderr) w w' := hbeside.mono fun p hp => ⟨name, hfile, hp.2⟩
  have hkept : ∀ h, σ.stderr = some h → ∀ P : Prop, P := by
    intro h hh
    cases hnone.symm.trans hh
  cases result with
  | ok h =>
    refine runs_modify_bind.2 ((runs_pure _).2 ⟨⟨⟨hsetup.directory, hsetup.redirects, hsetup.toPipe⟩, rfl, ?_, fun _ => .inr,
      ?_, hbeside'⟩, ?_⟩)
    · exact fun g hg => hkept g hg _
    · rintro _ ⟨⟩
      obtain ⟨f, hf⟩ := hholds h rfl nofun
      exact ⟨name, f, hfile, hf⟩
    · rintro _ ⟨⟩
      rfl
  | error fault =>
    have hlost : BesideOutput base σ w { σ with stderrFailed := true } w' :=
      ⟨⟨hsetup.directory, hsetup.redirects, hsetup.toPipe⟩, rfl, fun _ => id, fun _ => .inr,
        fun h hh => hkept h hh _, hbeside'⟩
    refine runs_modify_bind.2 (runs_bind (writeNow_console_runs .err _) ?_ (by rintro fault after w' ⟨⟨⟩, -⟩))
    rintro _ _ w₂ ⟨-, rfl, hfed⟩
    refine (runs_pure _).2 ⟨⟨hlost.setup, rfl, hlost.kept, hlost.left, fun h hh => hkept h hh _, ?_⟩, nofun⟩
    exact hbeside'.trans (hfed.beside.mono nofun)

theorem error_beside (hsetup : base.SameSetup σ) (hlinked : w.files.Linked) (hguarded : Guarded base σ w)
    (text : String) : runs (error text) (fun _ after w' => BesideOutput base σ w after w') σ w := by
  unfold error
  refine runs_bind (stderrHandle_beside hsetup hlinked hguarded) ?_ fun _ _ _ hafter => hafter.1
  rintro handle after w₁ ⟨hbeside, hhandle⟩
  cases handle with
  | none =>
    refine runs_mono ?_ (writeNow_console_runs .err _)
    rintro _ _ w₂ ⟨-, rfl, hfed⟩
    refine hbeside.trans ⟨hbeside.setup, rfl, fun _ => id, fun _ => .inr, ?_, hfed.beside.mono nofun⟩
    intro h hh
    obtain ⟨name, f, hfile, hholds⟩ := hbeside.guarded h hh
    exact ⟨name, f, hfile, hfed.beside.holds ⟨hbeside.beside.linked hlinked, nofun⟩ hholds⟩
  | some h =>
    have hopen := hhandle h rfl
    obtain ⟨name, f, hfile, hholds⟩ := hbeside.guarded h hopen
    refine runs_mono ?_ (worksAt_writeFile (utf8Line text) after w₁ ⟨f, hholds⟩)
    rintro _ last w₂ ⟨hsettles, hleft, hbeside₂, f', hholds'⟩
    have hsame : last.stderr = after.stderr := hsettles.handle? .stderr
    refine hbeside.trans ⟨hbeside.setup.trans hsettles.sameSetup, hsettles.handle? .stdout, ?_, ?_, ?_, ?_⟩
    · exact fun g hg => hsame.trans hg
    · intro e he
      rcases hleft e he with rfl | hmem
      · exact .inl (hsame.trans hopen)
      · exact .inr hmem
    · intro g hg
      cases (hsame.trans hopen).symm.trans hg
      exact ⟨name, f', hfile, hholds'⟩
    · exact hbeside₂.mono fun p hp => ⟨name, hfile, hp⟩

end Streams

end Conch
