-- SUMMARY: The streams of a stage in use, in any order and whatever the world replies: what is opened, held and told.
import Conch.Proofs.Reading.StageGrammar
import Conch.Proofs.Stage.Diagnostics
import Conch.Proofs.System.Exchanges

/-!
# Streams in use

The streams of a stage can be asked for a handle, written to and closed, in any order
and any number of times. A use may come to a fault; the streams can be used on.

What a use does to the streams depends only on how its stream stands: it is opened if it
waits for that, and otherwise nothing is opened. `Got` sets this out, and all that is
said here of many uses is by induction over them with `Got` for each.
-/

namespace Conch

open StageM FileSystem

/-! ## Streams -/

namespace Streams

/-- The name of the file that takes the place of a stream. -/
def file? (σ : Streams) : Stream → Option String
  | .stdin => σ.redirects.stdin
  | .stdout => σ.redirects.stdout
  | .stderr => σ.redirects.stderr

/-- The file that was opened for a stream. -/
def handle? (σ : Streams) : Stream → Option Handle
  | .stdin => σ.stdin
  | .stdout => σ.stdout
  | .stderr => σ.stderr

/-- How the file of a stream is opened. -/
def mode (σ : Streams) : Stream → Mode
  | .stdin => .read
  | .stdout => if σ.redirects.append then .append else .truncate
  | .stderr => .truncate

/-- A file was opened, is owned and is used for a stream from now on. -/
def owning (σ : Streams) (h : Handle) : Stream → Streams
  | .stdin => { σ with owned := h :: σ.owned, stdin := some h }
  | .stdout => { σ with owned := h :: σ.owned, stdout := some h }
  | .stderr => { σ with owned := h :: σ.owned, stderr := some h }

/-- Asking for a stream opens its file. -/
structure Waits (σ : Streams) (st : Stream) (name : String) : Prop where
  file : σ.file? st = some name
  handle : σ.handle? st = none
  sound : st = .stderr → σ.stderrFailed = false

/-- The streams are the same but for what files have refused to take. -/
def Settles (σ after : Streams) : Prop :=
  ∃ unwritten, after = { σ with unwritten }

variable {σ after : Streams} {st : Stream}

theorem Settles.refl : σ.Settles σ := ⟨σ.unwritten, rfl⟩

theorem Settles.trans {middle : Streams} (h : σ.Settles middle) (h' : middle.Settles after) : σ.Settles after := by
  obtain ⟨u, rfl⟩ := h
  obtain ⟨u', rfl⟩ := h'
  exact ⟨u', rfl⟩

@[simp] theorem handle?_owning (h : Handle) : (σ.owning h st).handle? st = some h := by
  cases st <;> rfl

theorem handle?_owning_of_ne {st' : Stream} (h : Handle) (hne : st' ≠ st) :
    (σ.owning h st).handle? st' = σ.handle? st' := by
  cases st <;> cases st' <;> first | rfl | exact absurd rfl hne

@[simp] theorem owned_owning (h : Handle) : (σ.owning h st).owned = h :: σ.owned := by
  cases st <;> rfl

@[simp] theorem stderrFailed_owning (h : Handle) : (σ.owning h st).stderrFailed = σ.stderrFailed := by
  cases st <;> rfl

theorem sameSetup_owning (h : Handle) (st : Stream) : σ.SameSetup (σ.owning h st) := by
  cases st <;> exact ⟨rfl, rfl, rfl⟩

theorem SameSetup.trans {middle : Streams} (h : σ.SameSetup middle) (h' : middle.SameSetup after) :
    σ.SameSetup after :=
  ⟨h'.directory.trans h.directory, h'.redirects.trans h.redirects, h'.toPipe.trans h.toPipe⟩

theorem SameSetup.pathOf (h : σ.SameSetup after) (name : String) : after.pathOf name = σ.pathOf name := by
  simp only [Streams.pathOf, h.directory]

theorem SameSetup.file? (h : σ.SameSetup after) (st : Stream) : after.file? st = σ.file? st := by
  cases st <;> simp only [Streams.file?, h.redirects]

theorem SameSetup.mode (h : σ.SameSetup after) (st : Stream) : after.mode st = σ.mode st := by
  cases st <;> simp only [Streams.mode, h.redirects]

/-! ## Opening -/

/-- The file that was opened under a path, if any was. -/
def openings (path : String) (mode : Mode) : Except Fault Handle → List Opening
  | .ok h => [⟨h, path, mode⟩]
  | .error _ => []

/-- Streams of which nothing was used yet. -/
structure Unused (σ : Streams) : Prop where
  handles : ∀ st, σ.handle? st = none
  owned : σ.owned = []
  sound : σ.stderrFailed = false
  settled : σ.unwritten = []

theorem unused_ofStage (s : Stage) (directory : Path) (toPipe : Bool) : (ofStage s directory toPipe).Unused :=
  ⟨fun st => by cases st <;> rfl, rfl, rfl, rfl⟩

/-- What was opened is owned. -/
def keeping (σ : Streams) : Except Fault Handle → Streams
  | .ok h => { σ with owned := h :: σ.owned }
  | .error _ => σ

/-- What the exchanges are that try to open a file. -/
structure Attempt (path : String) (mode : Mode) (trace : List Exchange) (result : Except Fault Handle) : Prop where
  tried : ∀ t ∈ tried trace, t = (path, mode)
  opened : opened trace = openings path mode result
  held : ∀ held, heldAfter held trace = openings path mode result ++ held
  quiet : toldOnConsole trace = []

/-- Opening a file tries its path only, and what was opened is owned. -/
theorem openOwned_makes {name : String} {mode : Mode} {trace : List Exchange} {result : Except Fault Handle}
    (h : makes (openOwned name mode) σ trace result after) :
    Attempt (σ.pathOf name) mode trace result ∧ after = σ.keeping result := by
  unfold openOwned at h
  rw [makes_get_bind] at h
  dsimp only at h
  rw [show ((σ.directory.join (Path.ofString name)).normalize).toString = σ.pathOf name from rfl] at h
  generalize σ.pathOf name = path at h ⊢
  split at h
  · obtain ⟨rfl, rfl, rfl⟩ := makes_throw_bind.1 h
    exact ⟨⟨by simp [tried], rfl, fun _ => rfl, rfl⟩, rfl⟩
  rw [makes_call_bind] at h
  obtain ⟨looked, _, rfl, h⟩ := h
  split at h
  · rw [makes_throw_bind] at h
    obtain ⟨rfl, rfl, rfl⟩ := h
    exact ⟨⟨by simp [tried, Exchange.tried?], rfl, fun _ => rfl, rfl⟩, rfl⟩
  rw [makes_call_bind] at h
  obtain ⟨reply, _, rfl, h⟩ := h
  cases reply with
  | error cause =>
    obtain ⟨rfl, rfl, rfl⟩ := makes_throw.1 h
    exact ⟨⟨by simp [tried, Exchange.tried?], rfl, fun _ => rfl, rfl⟩, rfl⟩
  | ok handle =>
    dsimp only at h
    split at h
    · rw [makes_call_bind] at h
      obtain ⟨sought, _, rfl, h⟩ := h
      cases sought with
      | ok done =>
        simp only [makes_set_bind, makes_pure] at h
        obtain ⟨rfl, rfl, rfl⟩ := h
        exact ⟨⟨by simp [tried, Exchange.tried?], rfl, fun _ => rfl, rfl⟩, rfl⟩
      | error cause =>
        -- The file has no end to go to and is given back.
        rw [makes_call_bind] at h
        obtain ⟨closed, _, rfl, h⟩ := h
        obtain ⟨rfl, rfl, rfl⟩ := makes_throw_bind.1 h
        exact ⟨⟨by simp [tried, Exchange.tried?], rfl, fun _ => by simp [Exchange.holds, Call.holds, openings], rfl⟩, rfl⟩
    · simp only [makes_set_bind, makes_pure] at h
      obtain ⟨rfl, rfl, rfl⟩ := h
      exact ⟨⟨by simp [tried, Exchange.tried?], rfl, fun _ => rfl, rfl⟩, rfl⟩

end Streams

/-- Ask for a stream. -/
def Stream.handle : Stream → StageM (Option Handle)
  | .stdin => Streams.stdinHandle
  | .stdout => Streams.stdoutHandle
  | .stderr => Streams.stderrHandle

/-- What asking for a stream does, by how the stream stands. -/
inductive Got (σ : Streams) : Stream → List Exchange → Except Fault (Option Handle) → Streams → Prop
  | inherited {st : Stream} (hfile : σ.file? st = none) : Got σ st [] (.ok none) σ
  /-- The file for diagnostics could not be opened before. -/
  | lost (hfailed : σ.stderrFailed = true) : Got σ .stderr [] (.ok none) σ
  | kept {st : Stream} {name : String} {h : Handle} (hfile : σ.file? st = some name)
      (hhandle : σ.handle? st = some h) (hsound : st = .stderr → σ.stderrFailed = false) :
    Got σ st [] (.ok (some h)) σ
  | opens {st : Stream} {name : String} {trace : List Exchange} {h : Handle} {after : Streams}
      (hwaits : σ.Waits st name)
      (hattempt : (Streams.openOwned name (σ.mode st)).makes σ trace (.ok h) after) : Got σ st trace (.ok (some h)) (σ.owning h st)
  | refused {st : Stream} {name : String} {trace : List Exchange} {fault : Fault} (hst : st ≠ .stderr)
      (hwaits : σ.Waits st name) (hattempt : (Streams.openOwned name (σ.mode st)).makes σ trace (.error fault) σ) :
    Got σ st trace (.error fault) σ
  /-- The file for diagnostics cannot be opened, and that is told on the console. -/
  | failed {name : String} {trace : List Exchange} {fault : Fault} {reply : Except Errno Unit}
      {result : Except Fault (Option Handle)} (hwaits : σ.Waits .stderr name)
      (hattempt : (Streams.openOwned name .truncate).makes σ trace (.error fault) σ) (hresult : reply = .ok () → result = .ok none) :
    Got σ .stderr (trace ++ [⟨.write .err (utf8Line (fault.about name)), reply⟩]) result
      { σ with stderrFailed := true }

namespace Streams

variable {σ after : Streams} {st : Stream} {trace : List Exchange}

/-- The file of a stream that waits for it is opened, and used for the stream from then on. -/
theorem got_of_openOwned {name : String} {result : Except Fault (Option Handle)} {f : Handle → Streams → Streams}
    (hst : st ≠ .stderr) (hwaits : σ.Waits st name)
    (hf : ∀ h, f h { σ with owned := h :: σ.owned } = σ.owning h st)
    (h : makes (do let h ← openOwned name (σ.mode st); modify (f h); return some h) σ trace result after) :
    Got σ st trace result after := by
  rcases makes_bind.1 h with ⟨handle, middle, first, rest, rfl, hopen, hrest⟩ | ⟨fault, rfl, hopen⟩
  · simp only [makes_modify_bind, makes_pure] at hrest
    obtain ⟨rfl, rfl, rfl⟩ := hrest
    obtain ⟨-, rfl⟩ := openOwned_makes hopen
    rw [List.append_nil, keeping, hf]
    exact .opens hwaits hopen
  · obtain ⟨-, rfl⟩ := openOwned_makes hopen
    exact .refused hst hwaits hopen

theorem writeNow_makes {sink : Sink} {data : Bytes} {result : Except Fault Unit}
    (h : makes (writeNow sink data) σ trace result after) :
    ∃ reply : Except Errno Unit, trace = [⟨.write sink data, reply⟩] ∧ after = σ ∧
      (reply = .ok () → result = .ok ()) := by
  unfold writeNow at h
  rw [makes_call_bind] at h
  obtain ⟨reply, rest, rfl, h⟩ := h
  refine ⟨reply, ?_⟩
  split at h
  · obtain ⟨rfl, rfl, rfl⟩ := makes_pure.1 h
    exact ⟨rfl, rfl, fun _ => rfl⟩
  · obtain ⟨rfl, rfl, rfl⟩ := makes_throw.1 h
    exact ⟨rfl, rfl, nofun⟩
  · obtain ⟨rfl, rfl, rfl⟩ := makes_throw.1 h
    exact ⟨rfl, rfl, nofun⟩

end Streams

theorem Stream.handle_makes (st : Stream) {σ after : Streams} {trace : List Exchange}
    {result : Except Fault (Option Handle)} (h : makes st.handle σ trace result after) :
    Got σ st trace result after := by
  cases st with
  | stdin =>
    have hne : Stream.stdin ≠ .stderr := by decide
    simp only [handle, Streams.stdinHandle, makes_get_bind] at h
    split at h
    · obtain ⟨rfl, rfl, rfl⟩ := makes_pure.1 h
      exact .inherited ‹_›
    · rename_i name handle hname hhandle
      obtain ⟨rfl, rfl, rfl⟩ := makes_pure.1 h
      exact .kept hname hhandle fun hst => absurd hst hne
    · rename_i name hname hnone
      have hwaits : σ.Waits .stdin name := ⟨hname, hnone, fun hst => absurd hst hne⟩
      exact Streams.got_of_openOwned (f := fun h σ => { σ with stdin := some h }) hne hwaits (fun _ => rfl) h
  | stdout =>
    have hne : Stream.stdout ≠ .stderr := by decide
    simp only [handle, Streams.stdoutHandle, makes_get_bind] at h
    split at h
    · obtain ⟨rfl, rfl, rfl⟩ := makes_pure.1 h
      exact .inherited ‹_›
    · rename_i name handle hname hhandle
      obtain ⟨rfl, rfl, rfl⟩ := makes_pure.1 h
      exact .kept hname hhandle fun hst => absurd hst hne
    · rename_i name hname hnone
      have hwaits : σ.Waits .stdout name := ⟨hname, hnone, fun hst => absurd hst hne⟩
      exact Streams.got_of_openOwned (f := fun h σ => { σ with stdout := some h }) hne hwaits (fun _ => rfl) h
  | stderr =>
    simp only [handle, Streams.stderrHandle, makes_get_bind] at h
    split at h
    · obtain ⟨rfl, rfl, rfl⟩ := makes_pure.1 h
      exact .inherited ‹_›
    rename_i name hname
    split at h
    · obtain ⟨rfl, rfl, rfl⟩ := makes_pure.1 h
      exact .lost ‹_›
    rename_i hsound
    rw [Bool.not_eq_true] at hsound
    split at h
    · rename_i handle hhandle
      obtain ⟨rfl, rfl, rfl⟩ := makes_pure.1 h
      exact .kept hname hhandle fun _ => hsound
    rename_i hnone
    have hwaits : σ.Waits .stderr name := ⟨hname, hnone, fun _ => hsound⟩
    obtain ⟨r, middle, first, rest, rfl, hopen, h⟩ := makes_attempt_bind.1 h
    obtain ⟨-, rfl⟩ := Streams.openOwned_makes hopen
    cases r with
    | ok handle =>
      simp only [makes_modify_bind, makes_pure] at h
      obtain ⟨rfl, rfl, rfl⟩ := h
      rw [List.append_nil]
      show Got σ .stderr first _ (σ.owning handle .stderr)
      exact .opens hwaits hopen
    | error fault =>
      simp only [makes_modify_bind] at h
      rcases makes_bind.1 h with ⟨done, last, told, rest, rfl, htold, h⟩ | ⟨fault', rfl, htold⟩
      · obtain ⟨rfl, rfl, rfl⟩ := makes_pure.1 h
        obtain ⟨reply, rfl, rfl, -⟩ := Streams.writeNow_makes htold
        exact .failed hwaits hopen fun _ => rfl
      · obtain ⟨reply, rfl, rfl, hresult⟩ := Streams.writeNow_makes htold
        exact .failed hwaits hopen fun hok => by cases hresult hok

/-! ## Uses -/

/-- What can be done with the streams of a stage. -/
inductive Use where
  /-- A stream is asked for. -/
  | handle (st : Stream)
  | write (data : Bytes)
  | error (text : String)
  | close
  deriving DecidableEq, Repr

namespace Use

/-- What a use does. -/
def act : Use → StageM Unit
  | handle st => do
    let _ ← st.handle
    return ()
  | write data => Streams.write data
  | error text => Streams.error text
  | close => Streams.close

/-- The stream that a use asks for. -/
def stream? : Use → Option Stream
  | handle st => some st
  | write _ => some .stdout
  | error _ => some .stderr
  | close => none

/-- The diagnostic lines that a use is to give. -/
def lines : Use → List Bytes
  | error text => [utf8Line text]
  | _ => []

/-- The data that a use is to write. -/
def writes : Use → Bytes
  | write data => data
  | _ => []

/-- What a use tells on the console, if its stream has come to a file or to none. -/
def aloud (u : Use) : Except Fault (Option Handle) → List Bytes
  | .ok none => u.lines
  | _ => []

end Use

/-- What a use does: it asks for its stream and may write there, or it closes what is owned. -/
inductive Did (σ : Streams) : Use → List Exchange → Streams → Prop
  | asked {u : Use} {st : Stream} {first rest : List Exchange} {r : Except Fault (Option Handle)}
      {middle after : Streams} {sink : Sink} (hst : u.stream? = some st) (hgot : Got σ st first r middle)
      (hwrites : ∀ e ∈ rest, e.WritesTo sink) (htold : toldOnConsole rest = u.aloud r)
      (hafter : middle.Settles after) : Did σ u (first ++ rest) after
  | closed : Did σ .close (σ.owned.map fun h => ⟨.close h, ()⟩) { σ with owned := [] }

/-- A use that asks for its stream and does nothing else. -/
theorem Did.of_got {σ after : Streams} {u : Use} {st : Stream} {trace : List Exchange}
    {r : Except Fault (Option Handle)} (hst : u.stream? = some st) (hgot : Got σ st trace r after)
    (hquiet : u.aloud r = []) : Did σ u trace after := by
  have hnone : ∀ e ∈ ([] : List Exchange), e.WritesTo .out := List.forall_mem_nil _
  rw [← List.append_nil trace]
  exact .asked hst hgot hnone hquiet.symm .refl

namespace Streams

variable {α β : Type} {σ after : Streams} {st : Stream} {sink : Sink} {trace : List Exchange}

/-- All that is done is to write to a sink. -/
def OnlyWrites (sink : Sink) (x : StageM α) : Prop :=
  ∀ σ trace result after, makes x σ trace result after → (∀ e ∈ trace, e.WritesTo sink) ∧ σ.Settles after

theorem onlyWrites_bind {x : StageM β} {f : β → StageM α} (hx : OnlyWrites sink x)
    (hf : ∀ b, OnlyWrites sink (f b)) : OnlyWrites sink (x >>= f) := by
  intro σ trace result after h
  rcases makes_bind.1 h with ⟨b, middle, first, rest, rfl, hfirst, hrest⟩ | ⟨fault, rfl, hfirst⟩
  · have hfirst := hx _ _ _ _ hfirst
    have hrest := hf b _ _ _ _ hrest
    exact ⟨List.forall_mem_append.2 ⟨hfirst.1, hrest.1⟩, hfirst.2.trans hrest.2⟩
  · exact hx _ _ _ _ hfirst

theorem onlyWrites_get_bind {f : Streams → StageM α} (hf : ∀ streams, OnlyWrites sink (f streams)) :
    OnlyWrites sink (get >>= f) :=
  fun σ _ _ _ h => hf σ σ _ _ _ (makes_get_bind.1 h)

theorem onlyWrites_writeNow (sink : Sink) (data : Bytes) : OnlyWrites sink (writeNow sink data) := by
  intro σ trace result after h
  obtain ⟨reply, rfl, rfl, -⟩ := writeNow_makes h
  exact ⟨writesTo_alone reply, .refl⟩

theorem onlyWrites_setUnwritten (h : Handle) (data : Bytes) : OnlyWrites sink (setUnwritten h data) := by
  intro σ trace result after hmakes
  obtain ⟨rfl, rfl, rfl⟩ := makes_modify.1 hmakes
  exact ⟨List.forall_mem_nil _, _, rfl⟩

theorem onlyWrites_writeTo (sink : Sink) (data : Bytes) : OnlyWrites sink (writeTo sink data) := by
  unfold writeTo
  split
  · refine onlyWrites_bind (onlyWrites_writeNow _ _) fun _ => onlyWrites_get_bind fun streams => ?_
    dsimp only
    split
    · exact onlyWrites_bind (onlyWrites_setUnwritten _ _) fun _ =>
        onlyWrites_bind (onlyWrites_writeNow _ _) fun _ => onlyWrites_setUnwritten _ _
    · exact onlyWrites_bind (onlyWrites_writeNow _ _) fun _ =>
        onlyWrites_bind (onlyWrites_setUnwritten _ _) fun _ => onlyWrites_writeNow _ _
  · exact onlyWrites_writeNow _ _

/-- Everything that is owned is closed. -/
theorem close_makes {result : Except Fault Unit} (h : makes close σ trace result after) :
    trace = σ.owned.map (fun h => ⟨.close h, ()⟩) ∧ result = .ok () ∧ after = { σ with owned := [] } := by
  have hall : ∀ {handles : List Handle} {trace : List Exchange} {result : Except Fault PUnit} {after : Streams},
      makes (handles.forM fun h => call (.close h)) σ trace result after →
        trace = handles.map (fun h => ⟨.close h, ()⟩) ∧ result = .ok ⟨⟩ ∧ after = σ := by
    intro handles
    induction handles with
    | nil =>
      intro trace result after h
      exact makes_pure.1 h
    | cons handle rest ih =>
      intro trace result after h
      obtain ⟨reply, last, rfl, hlast⟩ := makes_call_bind.1 h
      obtain ⟨rfl, rfl, rfl⟩ := ih hlast
      exact ⟨rfl, rfl, rfl⟩
  unfold close at h
  rw [makes_get_bind] at h
  rcases makes_bind.1 h with ⟨done, middle, first, rest, rfl, hfirst, hrest⟩ | ⟨fault, rfl, hfirst⟩
  · obtain ⟨rfl, -, rfl⟩ := hall hfirst
    obtain ⟨rfl, rfl, rfl⟩ := makes_modify.1 hrest
    exact ⟨List.append_nil _, rfl, rfl⟩
  · obtain ⟨-, hresult, -⟩ := hall hfirst
    cases hresult

end Streams

/-- Each use does one of the things that are set out. -/
theorem Use.act_makes {σ after : Streams} {u : Use} {trace : List Exchange} {result : Except Fault Unit}
    (h : makes u.act σ trace result after) : Did σ u trace after := by
  cases u with
  | handle st =>
    rcases makes_bind.1 h with ⟨handle, middle, first, rest, rfl, hgot, hrest⟩ | ⟨fault, rfl, hgot⟩
    · obtain ⟨rfl, rfl, rfl⟩ := makes_pure.1 hrest
      rw [List.append_nil]
      exact .of_got rfl (st.handle_makes hgot) (by cases handle <;> rfl)
    · exact .of_got rfl (st.handle_makes hgot) rfl
  | write data =>
    rcases makes_bind.1 h with ⟨handle, middle, first, rest, rfl, hgot, hrest⟩ | ⟨fault, rfl, hgot⟩
    · have hgot := Stream.handle_makes .stdout hgot
      cases handle with
      | some handle =>
        obtain ⟨hwrites, hafter⟩ := Streams.onlyWrites_writeTo _ _ _ _ _ _ hrest
        exact .asked rfl hgot hwrites (toldOnConsole_of_writes hwrites nofun) hafter
      | none =>
        rw [makes_get_bind] at hrest
        obtain ⟨hwrites, hafter⟩ := Streams.onlyWrites_writeTo _ _ _ _ _ _ hrest
        refine .asked rfl hgot hwrites (toldOnConsole_of_writes hwrites ?_) hafter
        split <;> exact nofun
    · exact .of_got rfl (Stream.handle_makes .stdout hgot) rfl
  | error text =>
    rcases makes_bind.1 h with ⟨handle, middle, first, rest, rfl, hgot, hrest⟩ | ⟨fault, rfl, hgot⟩
    · have hgot := Stream.handle_makes .stderr hgot
      cases handle with
      | some handle =>
        obtain ⟨hwrites, hafter⟩ := Streams.onlyWrites_writeTo _ _ _ _ _ _ hrest
        exact .asked rfl hgot hwrites (toldOnConsole_of_writes hwrites nofun) hafter
      | none =>
        obtain ⟨reply, rfl, rfl, -⟩ := Streams.writeNow_makes hrest
        exact .asked rfl hgot (writesTo_alone reply) rfl .refl
    · exact .of_got rfl (Stream.handle_makes .stderr hgot) rfl
  | close =>
    obtain ⟨rfl, rfl, rfl⟩ := Streams.close_makes h
    exact .closed

/-! ## What one use changes -/

/-- What a use opens: nothing, or the file of the stream that it asks for. The rest of the streams is kept. -/
inductive Effect (σ : Streams) (u : Use) : List Opening → Streams → Prop
  | nothing {after : Streams} (howned : after.owned = σ.owned) (hhandle : ∀ st, after.handle? st = σ.handle? st) :
    Effect σ u [] after
  | opens {st : Stream} {name : String} {h : Handle} {after : Streams} (hst : u.stream? = some st)
      (hwaits : σ.Waits st name) (howned : after.owned = h :: σ.owned)
      (hhandle : ∀ st', after.handle? st' = (σ.owning h st).handle? st') :
    Effect σ u [⟨h, σ.pathOf name, σ.mode st⟩] after

namespace Streams

variable {σ after : Streams}

theorem Settles.handle? (h : σ.Settles after) (st : Stream) : after.handle? st = σ.handle? st := by
  obtain ⟨u, rfl⟩ := h
  cases st <;> rfl

theorem Settles.owned (h : σ.Settles after) : after.owned = σ.owned := by
  obtain ⟨u, rfl⟩ := h
  rfl

theorem Settles.stderrFailed (h : σ.Settles after) : after.stderrFailed = σ.stderrFailed := by
  obtain ⟨u, rfl⟩ := h
  rfl

theorem Settles.sameSetup (h : σ.Settles after) : σ.SameSetup after := by
  obtain ⟨u, rfl⟩ := h
  exact ⟨rfl, rfl, rfl⟩

end Streams

section Changes

variable {σ after : Streams} {u : Use} {st : Stream} {trace : List Exchange} {r : Except Fault (Option Handle)}

theorem Effect.settles {new : List Opening} {middle : Streams} (h : Effect σ u new middle)
    (hafter : middle.Settles after) : Effect σ u new after := by
  cases h with
  | nothing howned hhandle => exact .nothing (hafter.owned.trans howned) fun st => (hafter.handle? st).trans (hhandle st)
  | opens hst hwaits howned hhandle =>
    exact .opens hst hwaits (hafter.owned.trans howned) fun st => (hafter.handle? st).trans (hhandle st)

theorem Got.sameSetup (h : Got σ st trace r after) : σ.SameSetup after := by
  cases h with
  | opens => exact Streams.sameSetup_owning _ _
  | _ => exact ⟨rfl, rfl, rfl⟩

/-- Asking for a stream opens what it says to have opened, and holds it open. -/
theorem Got.effect (hst : u.stream? = some st) (h : Got σ st trace r after) :
    Effect σ u (opened trace) after ∧ ∀ held, heldAfter held trace = opened trace ++ held := by
  cases h with
  | opens hwaits hmakes =>
    obtain ⟨hattempt, rfl⟩ := Streams.openOwned_makes hmakes
    rw [hattempt.opened]
    exact ⟨.opens hst hwaits (Streams.owned_owning _) fun _ => rfl, hattempt.held⟩
  | refused _ hwaits hmakes =>
    obtain ⟨hattempt, -⟩ := Streams.openOwned_makes hmakes
    rw [hattempt.opened]
    exact ⟨.nothing rfl fun _ => rfl, hattempt.held⟩
  | @failed _ _ _ reply _ hwaits hmakes hresult =>
    obtain ⟨hattempt, -⟩ := Streams.openOwned_makes hmakes
    rw [opened_append_of_writes (writesTo_alone reply), hattempt.opened]
    refine ⟨.nothing rfl fun st => by cases st <;> rfl, fun held => ?_⟩
    rw [heldAfter_append, heldAfter_of_writes (writesTo_alone reply)]
    exact hattempt.held held
  | _ => exact ⟨.nothing rfl fun _ => rfl, fun _ => rfl⟩

/-- Only a file that its stream waits for is tried to open. -/
theorem Got.tried (h : Got σ st trace r after) :
    ∀ t ∈ tried trace, ∃ name, σ.Waits st name ∧ t = (σ.pathOf name, σ.mode st) := by
  cases h with
  | opens hwaits hmakes => exact fun t ht => ⟨_, hwaits, (Streams.openOwned_makes hmakes).1.tried t ht⟩
  | refused _ hwaits hmakes => exact fun t ht => ⟨_, hwaits, (Streams.openOwned_makes hmakes).1.tried t ht⟩
  | @failed _ _ _ reply _ hwaits hmakes hresult =>
    intro t ht
    rw [tried_append, tried_of_writes (writesTo_alone reply), List.append_nil] at ht
    exact ⟨_, hwaits, (Streams.openOwned_makes hmakes).1.tried t ht⟩
  | _ => simp [Conch.tried]

theorem Did.sameSetup (h : Did σ u trace after) : σ.SameSetup after := by
  cases h with
  | asked hst hgot hwrites htold hafter => exact hgot.sameSetup.trans hafter.sameSetup
  | closed => exact ⟨rfl, rfl, rfl⟩

theorem Did.tried (h : Did σ u trace after) :
    ∀ t ∈ tried trace, ∃ st name, u.stream? = some st ∧ σ.Waits st name ∧ t = (σ.pathOf name, σ.mode st) := by
  cases h with
  | asked hst hgot hwrites htold hafter =>
    intro t ht
    rw [tried_append, tried_of_writes hwrites, List.append_nil] at ht
    obtain ⟨name, hwaits, heq⟩ := hgot.tried t ht
    exact ⟨_, name, hst, hwaits, heq⟩
  | closed => simp [Conch.tried, List.filterMap_map, Function.comp_def, Exchange.tried?]

/-- What a use does that asks for a stream: it gets the stream, and opens nothing after that. -/
theorem Did.got (h : Did σ u trace after) (hst : u.stream? = some st) :
    ∃ first rest r middle, trace = first ++ rest ∧ Got σ st first r middle ∧ Conch.tried rest = [] ∧
      toldOnConsole rest = u.aloud r ∧ middle.Settles after := by
  cases h with
  | @asked _ st' first rest r middle _ sink hst' hgot hwrites htold hafter =>
    cases hst.symm.trans hst'
    exact ⟨first, rest, r, middle, rfl, hgot, tried_of_writes hwrites, htold, hafter⟩
  | closed => cases hst

/-- Other uses are no matter of diagnostics. -/
theorem Did.silent (h : Did σ u trace after) (hst : u.stream? ≠ some .stderr) :
    toldOnConsole trace = [] ∧ u.lines = [] ∧ after.stderr = σ.stderr ∧ after.stderrFailed = σ.stderrFailed := by
  have hlines : u.lines = [] := by
    cases u with
    | error text => exact absurd rfl hst
    | _ => rfl
  cases h with
  | @asked _ st first rest r middle _ sink hst' hgot hwrites htold hafter =>
    have hne : st ≠ .stderr := by
      rintro rfl
      exact hst hst'
    have hquiet : toldOnConsole rest = [] := by
      rw [htold]
      unfold Use.aloud
      split <;> first | exact hlines | rfl
    have hsame : after.stderr = middle.stderr := hafter.handle? .stderr
    rw [toldOnConsole_append, hquiet, List.append_nil, hlines, hsame, hafter.stderrFailed]
    cases hgot with
    | opens hwaits hmakes =>
      rw [(Streams.openOwned_makes hmakes).1.quiet]
      exact ⟨rfl, rfl, Streams.handle?_owning_of_ne _ hne.symm, Streams.stderrFailed_owning _⟩
    | refused _ hwaits hmakes => exact ⟨(Streams.openOwned_makes hmakes).1.quiet, rfl, rfl, rfl⟩
    | inherited => exact ⟨rfl, rfl, rfl, rfl⟩
    | kept => exact ⟨rfl, rfl, rfl, rfl⟩
    | _ => exact absurd rfl hne
  | closed => exact ⟨by simp [toldOnConsole, List.filterMap_map, Function.comp_def, Exchange.told?], rfl, rfl, rfl⟩

/-- A use opens what it says to have opened and holds it open, or it closes what is owned. -/
theorem Did.effect (h : Did σ u trace after) :
    (Effect σ u (opened trace) after ∧ ∀ held, heldAfter held trace = opened trace ++ held) ∨
      u = .close ∧ trace = σ.owned.map (fun h => ⟨.close h, ()⟩) ∧ after = { σ with owned := [] } := by
  cases h with
  | asked hst hgot hwrites htold hafter =>
    obtain ⟨heffect, hheld⟩ := hgot.effect hst
    rw [opened_append_of_writes hwrites]
    refine .inl ⟨heffect.settles hafter, fun held => ?_⟩
    rw [heldAfter_append, heldAfter_of_writes hwrites]
    exact hheld held
  | closed => exact .inr ⟨rfl, rfl, rfl⟩

end Changes

end Conch
