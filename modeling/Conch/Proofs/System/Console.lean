-- SUMMARY: What was said on the console before makes no difference to what is done after it.
import Conch.System.Job

/-!
# The console behind the world

Nobody can read what has gone to the console: it only grows. So whatever is done in a
world on whose console something was said before is done in the same way, with the same
replies, and what it adds to the console comes behind what was there.
-/

namespace Conch

namespace World

/-- A world on whose console something was said before, as output and as diagnostics. -/
def behind (w : World) (out err : Bytes) : World :=
  { w with out := out ++ w.out, err := err ++ w.err }

variable {w : World} {out err : Bytes}

@[simp] theorem behind_files : (w.behind out err).files = w.files := rfl
@[simp] theorem behind_opened : (w.behind out err).opened = w.opened := rfl
@[simp] theorem behind_openFile? (h : Handle) : (w.behind out err).openFile? h = w.openFile? h := rfl

/-- An answer and the world after it, with something said on the console before. -/
def answerBehind {α : Type} (out err : Bytes) (answer : α × World) : α × World :=
  (answer.1, answer.2.behind out err)

theorem readFile_behind (h : Handle) (f : OpenFile) (limit : Nat) :
    (w.behind out err).readFile h f limit = answerBehind out err (w.readFile h f limit) := by
  unfold readFile
  rw [behind_files]
  split
  · rfl
  split
  · rfl
  cases w.files.node? f.node with
  | none => rfl
  | some node =>
    cases node with
    | device d => cases d <;> rfl
    | _ => rfl

theorem writeFile_behind (h : Handle) (f : OpenFile) (data : Bytes) :
    (w.behind out err).writeFile h f data = answerBehind out err (w.writeFile h f data) := by
  unfold writeFile
  rw [behind_files]
  split
  · rfl
  split
  · rfl
  cases w.files.node? f.node with
  | none => rfl
  | some node =>
    cases node with
    | device d => cases d <;> simp [answerBehind, behind]
    | _ => rfl

theorem read_behind (source : Source) (limit : Nat) :
    (w.behind out err).read source limit = answerBehind out err (w.read source limit) := by
  cases source with
  | file h =>
    simp only [read, behind_openFile?]
    cases w.openFile? h with
    | none => rfl
    | some f => exact readFile_behind h f limit
  | pipe => rfl
  | joint n => rfl
  | empty => rfl
  | closed => rfl

theorem write_behind (sink : Sink) (data : Bytes) :
    (w.behind out err).write sink data = answerBehind out err (w.write sink data) := by
  cases sink with
  | file h =>
    simp only [write, behind_openFile?]
    cases w.openFile? h with
    | none => rfl
    | some f => exact writeFile_behind h f data
  | pipe => rfl
  | joint n => rfl
  | out => simp [write, answerBehind, behind]
  | err => simp [write, answerBehind, behind]
  | closed => rfl

theorem openPath_behind (base : Ino) (path : String) (mode : FileSystem.Mode) :
    (w.behind out err).openPath base path mode = answerBehind out err (w.openPath base path mode) := by
  simp only [openPath, behind_files]
  cases w.files.openNode base path mode <;> rfl

theorem close_behind (h : Handle) : (w.behind out err).close h = (w.close h).behind out err := by
  simp only [close, behind_opened]
  cases w.opened[h]? <;> rfl

theorem reopen_behind (h : Handle) (mode : FileSystem.Mode) :
    (w.behind out err).reopen h mode = answerBehind out err (w.reopen h mode) := by
  simp only [reopen, behind_openFile?]
  cases w.openFile? h <;> rfl

theorem seekEnd_behind (h : Handle) :
    (w.behind out err).seekEnd h = answerBehind out err (w.seekEnd h) := by
  simp only [seekEnd, behind_openFile?, behind_files]
  cases w.openFile? h with
  | none => rfl
  | some f =>
    cases hnode : w.files.node? f.node with
    | none => simp only [hnode]; rfl
    | some node =>
      simp only [hnode]
      cases node with
      | device d => cases d <;> rfl
      | _ => rfl

theorem goBack_behind (h : Handle) (count : Nat) :
    (w.behind out err).goBack h count = answerBehind out err (w.goBack h count) := by
  simp only [goBack, behind_openFile?, behind_files]
  cases w.openFile? h with
  | none => rfl
  | some f =>
    cases hnode : w.files.node? f.node with
    | none => simp only [hnode]; rfl
    | some node =>
      simp only [hnode]
      cases node <;> rfl

/-- No call is answered in another way because of what was said on the console before. -/
theorem perform_behind (c : Call) : (w.behind out err).perform c = answerBehind out err (w.perform c) := by
  cases c with
  | read source limit => exact read_behind source limit
  | write sink data => exact write_behind sink data
  | close h => exact congrArg (Prod.mk ()) (close_behind h)
  | openFile base path mode => exact openPath_behind base path mode
  | reopen h mode => exact reopen_behind h mode
  | seekEnd h => exact seekEnd_behind h
  | goBack h count => exact goBack_behind h count
  | change base what =>
    simp only [perform, behind_files]
    cases w.files.apply base what <;> rfl
  | _ => rfl

/-- A world without what was said on its console. -/
def quiet (w : World) : World := { w with out := [], err := [] }

theorem quiet_behind (w : World) : w.quiet.behind w.out w.err = w := by
  simp [quiet, behind]

end World

/-- Nor is any job done in another way. -/
theorem Job.run_behind {α : Type} (j : Job α) (w : World) (out err : Bytes) :
    j.run (w.behind out err) = World.answerBehind out err (j.run w) := by
  induction j generalizing w with
  | done a => rfl
  | ask call resume ih =>
    simp only [Job.run, World.perform_behind]
    exact ih _ _

end Conch
