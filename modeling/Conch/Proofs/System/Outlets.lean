-- SUMMARY: Where the bytes come to that are written to an open file: a stored file, the console, or nowhere.
import Conch.Proofs.System.Elsewhere

/-!
# Outlets

What is written to the file of a stream is kept in a stored file, goes to the console if
the file is a device of the console, or is lost in a device that takes everything. These
are the outlets that never refuse anything. A path `Lands` at an outlet, and once it was
opened the handle `Feeds` the outlet: each write adds to it, and to nothing else.
-/

namespace Conch

open FileSystem World

/-- What the bytes in a world come to that no file keeps. -/
inductive Console where
  | out
  | err
  /-- The pipe that no run serves. -/
  | pipe
  deriving DecidableEq, Repr

/-- Where bytes come to that are written and not refused. -/
inductive Outlet where
  | console (c : Console)
  /-- A device that takes everything and keeps nothing. -/
  | void
  /-- A stored file, by its path. -/
  | stored (path : String)
  deriving DecidableEq, Repr

/-- The sink that leads there. -/
def Console.sink : Console → Sink
  | out => .out
  | err => .err
  | pipe => .pipe

/-- What has gone to the console so far. -/
def World.got (w : World) : Console → Bytes
  | .out => w.out
  | .err => w.err
  | .pipe => w.piped

/-- Where a device that takes everything leaves it. -/
def Device.outlet? : Device → Option Outlet
  | .null => some .void
  | .zero => some .void
  | .consoleOut => some (.console .out)
  | .consoleErr => some (.console .err)
  | _ => none

namespace Outlet

/-- The paths at which something is different once an outlet was fed. -/
def Writes (o : Outlet) (path : String) : Prop :=
  o = stored path

/-- What a console gets of the bytes that an outlet gets. -/
def share (o : Outlet) (c : Console) (data : Bytes) : Bytes :=
  if o = console c then data else []

@[simp] theorem share_nil (o : Outlet) (c : Console) : o.share c [] = [] := by
  simp [share]

theorem share_append (o : Outlet) (c : Console) (data more : Bytes) :
    o.share c (data ++ more) = o.share c data ++ o.share c more := by
  unfold share
  split <;> simp

end Outlet

theorem Device.outlet?_ne_stored {d : Device} {path : String} : d.outlet? ≠ some (.stored path) := by
  cases d <;> simp [outlet?]

/-- An outlet got some bytes, and the console got those that came to it. -/
def World.Poured (o : Outlet) (data : Bytes) (w w' : World) : Prop :=
  ∀ c, w'.got c = w.got c ++ o.share c data

/-- An outlet got some more bytes, and nothing else is different. -/
structure World.Fed (o : Outlet) (data : Bytes) (w w' : World) : Prop where
  beside : Beside o.Writes w w'
  poured : Poured o data w w'

namespace World

variable {o : Outlet} {data more : Bytes} {w w' w'' : World}

theorem Fed.refl (o : Outlet) (w : World) : Fed o [] w w :=
  ⟨.refl, fun c => by simp⟩

theorem Fed.trans (h : Fed o data w w') (h' : Fed o more w' w'') : Fed o (data ++ more) w w'' := by
  refine ⟨h.beside.trans h'.beside, fun c => ?_⟩
  rw [h'.poured, h.poured, Outlet.share_append, List.append_assoc]

theorem fed_of_nudge (hnudge : Nudge o.Writes w w') (hpoured : Poured o data w w') : Fed o data w w' :=
  ⟨.single hnudge, hpoured⟩

/-- What is different at the path of a stored file is so at the outlet. -/
theorem Nudge.stored {path : String} (h : Nudge (· = path) w w') : Nudge (Outlet.stored path).Writes w w' :=
  h.mono fun _ hq => congrArg Outlet.stored hq.symm

end World

/-- A path leads to an outlet that has something in it. Only a stored file can have. -/
inductive FileSystem.Lands (fs : FileSystem) (path : String) : Outlet → Bytes → Prop
  | stored {spot : Spot} {old : Bytes} (htarget : fs.Target path spot old) : Lands fs path (.stored path) old
  | device {i : Ino} {d : Device} {o : Outlet} {old : Bytes} (hnul : hasNul path = false)
      (hleads : fs.writingSpot path = .ok (.found i)) (hd : fs.node? i = some (.device d)) (ho : d.outlet? = some o) :
    Lands fs path o old

/-- What is written to an open file comes to an outlet, after what is in it. -/
inductive World.Feeds (w : World) (path : String) (h : Handle) : Outlet → Bytes → Prop
  | stored {f : OpenFile} {content : Bytes} (hholds : w.Holds path h f)
      (htarget : w.files.Target path (.found f.node) content)
      (hend : f.mode = .append ∨ f.mode = .truncate ∧ f.position = content.length) : Feeds w path h (.stored path) content
  | device {f : OpenFile} {d : Device} {o : Outlet} {content : Bytes} (hholds : w.Holds path h f)
      (hmode : f.mode = .append ∨ f.mode = .truncate) (hd : w.files.node? f.node = some (.device d))
      (ho : d.outlet? = some o) : Feeds w path h o content

section Kept

variable {P : String → Prop} {path : String} {o : Outlet} {content : Bytes} {w w' : World} {h : Handle}

theorem FileSystem.Lands.beside (hlands : w.files.Lands path o content) (hbeside : Beside P w w')
    (hclear : Clear P path writing w) : w'.files.Lands path o content := by
  cases hlands with
  | stored htarget => exact .stored (hbeside.target hclear htarget)
  | device hnul hleads hd ho => exact .device hnul (hbeside.spot hclear hleads) (hbeside.device hd) ho

theorem World.Feeds.beside (hfeeds : w.Feeds path h o content) (hbeside : Beside P w w')
    (hclear : Clear P path writing w) : w'.Feeds path h o content := by
  cases hfeeds with
  | stored hholds htarget hend => exact .stored (hbeside.holds hclear hholds) (hbeside.target hclear htarget) hend
  | device hholds hmode hd ho => exact .device (hbeside.holds hclear hholds) hmode (hbeside.device hd) ho

theorem World.Feeds.holds (hfeeds : w.Feeds path h o content) : ∃ f, w.Holds path h f := by
  cases hfeeds with
  | stored hholds _ _ => exact ⟨_, hholds⟩
  | device hholds _ _ _ => exact ⟨_, hholds⟩

end Kept

section Calls

variable {path : String} {o : Outlet} {content old : Bytes} {w : World} {h : Handle}

/-- A stored file that is open was written as it is. -/
theorem World.writes_self {f : OpenFile} (hholds : w.Holds path h f)
    (htarget : w.files.Target path (.found f.node) content)
    (hend : f.mode = .append ∨ f.mode = .truncate ∧ f.position = content.length) :
    w.Writes (.found f.node) content h w :=
  ⟨.refl htarget.held, ⟨f, hholds.1, rfl, hend⟩, rfl, rfl⟩

/-- What was written at the place of a path feeds the file there. -/
theorem World.Writes.feeds {spot : Spot} {w' : World} (hwrites : w.Writes spot content h w') (hlinked : w.files.Linked)
    (htarget : w.files.Target path spot old) : w'.Feeds path h (.stored path) content := by
  obtain ⟨f, hf, hnode, hend⟩ := hwrites.opened
  have htarget' := hwrites.files.target hlinked (htarget.writable hlinked) htarget
  rw [moved_self, if_pos rfl, ← hnode] at htarget'
  exact .stored ⟨hf, htarget'.leads⟩ htarget' hend

theorem World.write_file_piped (w : World) (h : Handle) (data : Bytes) : (w.write (.file h) data).2.piped = w.piped := by
  simp only [World.write]
  split
  · unfold writeFile
    repeat' split
    all_goals rfl
  · rfl

theorem World.seekEnd_piped (w : World) (h : Handle) : (w.seekEnd h).2.piped = w.piped := by
  unfold World.seekEnd
  repeat' split
  all_goals rfl

/-- The world once an outlet that is not a stored file got some bytes. -/
def World.pour (w : World) (o : Outlet) (data : Bytes) : World :=
  { w with
    out := w.out ++ o.share .out data
    err := w.err ++ o.share .err data
    piped := w.piped ++ o.share .pipe data }

@[simp] theorem World.pour_files (w : World) (o : Outlet) (data : Bytes) : (w.pour o data).files = w.files := rfl

@[simp] theorem World.pour_opened (w : World) (o : Outlet) (data : Bytes) : (w.pour o data).opened = w.opened := rfl

theorem World.poured_pour (w : World) (o : Outlet) (data : Bytes) : Poured o data w (w.pour o data) := by
  intro c
  cases c <;> rfl

/-- The interpreter's own streams take everything. -/
theorem World.write_console (w : World) (c : Console) (data : Bytes) :
    w.write c.sink data = (.ok (), w.pour (.console c) data) := by
  cases c <;> simp [World.write, Console.sink, pour, Outlet.share]

/-- A device that takes everything leaves it at its outlet. -/
theorem World.write_device {f : OpenFile} {d : Device} (hholds : w.Holds path h f)
    (hmode : f.mode = .append ∨ f.mode = .truncate) (hd : w.files.node? f.node = some (.device d))
    (ho : d.outlet? = some o) (data : Bytes) : w.write (.file h) data = (.ok (), w.pour o data) := by
  have hread : f.mode ≠ .read := by
    rcases hmode with hmode | hmode <;> simp [hmode]
  cases data with
  | nil => simp [World.write, hholds.1, writeFile, hread, pour]
  | cons b rest =>
    cases d <;> cases ho <;> simp [World.write, hholds.1, writeFile, hread, hd, pour, Outlet.share]

/-- Opening a file tells the console nothing. -/
theorem World.got_openPath {base : Ino} {mode : Mode} {reply : Except Errno Handle} {w' : World}
    (hopen : w.openPath base path mode = (reply, w')) (c : Console) : w'.got c = w.got c := by
  unfold World.openPath at hopen
  split at hopen
  · cases hopen
    rfl
  · cases hopen
    cases c <;> rfl

theorem World.got_closeAll (handles : List Handle) (w : World) (c : Console) :
    (handles.foldl World.close w).got c = w.got c := by
  induction handles generalizing w with
  | nil => rfl
  | cons h rest ih =>
    have hclose : (w.close h).got c = w.got c := by
      unfold World.close
      split
      · cases c <;> rfl
      · rfl
    exact (ih (w.close h)).trans hclose

/-- A write adds to the outlet of its file and to nothing else. -/
theorem World.Feeds.write (hfeeds : w.Feeds path h o content) (hlinked : w.files.Linked) (data : Bytes) :
    ∃ w', w.write (.file h) data = (.ok (), w') ∧ w'.Feeds path h o (content ++ data) ∧ Fed o data w w' := by
  cases hfeeds with
  | @stored f _ hholds htarget hend =>
    obtain ⟨w', hwrite, hwrites⟩ := (writes_self hholds htarget hend).write data
    have hnudge := (hholds.write data).1
    have hpiped := w.write_file_piped h data
    rw [hwrite] at hnudge hpiped
    refine ⟨w', hwrite, hwrites.feeds hlinked htarget, fed_of_nudge hnudge.stored ?_⟩
    rintro (_ | _ | _)
    · simpa [got, Outlet.share] using hwrites.out
    · simpa [got, Outlet.share] using hwrites.err
    · simpa [got, Outlet.share] using hpiped
  | device hholds hmode hd ho =>
    refine ⟨w.pour o data, write_device hholds hmode hd ho data, ?_,
      fed_of_nudge (nudge_of_same (pour_files w o data) (pour_opened w o data)) (poured_pour w o data)⟩
    refine .device ⟨?_, ?_⟩ hmode ?_ ho
    · unfold openFile?
      rw [pour_opened]
      exact hholds.1
    · rw [pour_files]
      exact hholds.2
    · rw [pour_files]
      exact hd

/-- Going to the end of a file that is written to its end changes nothing about what comes next. -/
theorem World.Feeds.seekEnd (hfeeds : w.Feeds path h o content) (hlinked : w.files.Linked) :
    ∃ w', w.seekEnd h = (.ok (), w') ∧ w'.Feeds path h o content ∧ Fed o [] w w' := by
  cases hfeeds with
  | stored hholds htarget hend =>
    obtain ⟨w', hseek, hwrites⟩ := (writes_self hholds htarget hend).seekEnd
    have hnudge := hholds.seekEnd.1
    have hpiped := w.seekEnd_piped h
    rw [hseek] at hnudge hpiped
    refine ⟨w', hseek, hwrites.feeds hlinked htarget, fed_of_nudge hnudge.stored ?_⟩
    rintro (_ | _ | _)
    · simpa [got] using hwrites.out
    · simpa [got] using hwrites.err
    · simpa [got] using hpiped
  | @device f d _ _ hholds hmode hd ho =>
    have hseek : w.seekEnd h = (.ok (), w) := by
      cases d <;> cases ho <;> simp [World.seekEnd, hholds.1, hd]
    exact ⟨w, hseek, .device hholds hmode hd ho, .refl o w⟩

/-- What lands at an outlet can be opened, and feeds the outlet from then on. -/
theorem FileSystem.Lands.openPath (hlands : w.files.Lands path o old) (hlinked : w.files.Linked) (append : Bool) :
    ∃ w', w.openPath root path (if append then .append else .truncate) = (.ok w.opened.size, w') ∧
      w'.Feeds path w.opened.size o (if append then old else []) ∧ Fed o [] w w' := by
  cases hlands with
  | stored htarget =>
    obtain ⟨w', hopen, hwrites⟩ := openPath_writes hlinked htarget append
    have hmode : (if append then Mode.append else .truncate) ≠ .read := by cases append <;> exact nofun
    have hnudge := (openPath_nudge hlinked hmode hopen).1
    refine ⟨w', hopen, hwrites.feeds hlinked htarget, fed_of_nudge hnudge.stored ?_⟩
    have hpiped : w'.piped = w.piped := by
      simp only [World.openPath] at hopen
      split at hopen
      · cases hopen
      · cases hopen
        rfl
    rintro (_ | _ | _)
    · simpa [got] using hwrites.out
    · simpa [got] using hwrites.err
    · simpa [got] using hpiped
  | @device i d _ _ hnul hleads hd ho =>
    have hmode : (if append then Mode.append else .truncate) = .append ∨
        (if append then Mode.append else .truncate) = .truncate := by cases append <;> simp
    generalize (if append then Mode.append else .truncate) = mode at hmode ⊢
    have hopen : w.files.openNode root path mode = .ok (w.files, i) := by
      have hhow : w.files.locate root path { followLast := true, creating := mode ≠ .read } =
          w.files.writingSpot path := by
        rcases hmode with rfl | rfl <;> rfl
      unfold openNode
      rw [hhow, hleads]
      cases d <;> cases ho <;> simp [hd, emptied]
    refine ⟨_, by simp only [World.openPath, hopen]; rfl, ?_, fed_of_nudge ?_ fun c => ?_⟩
    · have hfile : World.openFile? { w with opened := w.opened.push { node := i, mode } } w.opened.size =
          some { node := i, mode } := (openFile?_of_some Array.getElem?_push_size).trans rfl
      exact .device ⟨hfile, hleads⟩ hmode hd ho
    · exact nudge_of_files rfl fun h f hf => openFile?_push hf w.files
    · cases c <;> simp [got]

end Calls

end Conch
