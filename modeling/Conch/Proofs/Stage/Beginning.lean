-- SUMMARY: A stage that cannot begin only tells so, whatever the world replies, on its own and at each step of a pipeline.
import Conch.Proofs.Stage.Ownership
import Conch.Proofs.Stage.Requests
import Conch.Proofs.Stage.Telling

/-!
# Stages that cannot begin

A stage cannot begin if its command is not found or if its `<` file cannot be opened when
that is tried. A built-in command tries its input before anything else, and a program
after it was found and its file for diagnostics was asked for.

`Stage.CannotBegin` reads this off what was asked of the world, and so it can be said of a
stage that has the world to itself and of one that shares it. In either case one line is
told, and `Stage.Course` is the way there.
-/

namespace Conch

open StageM FileSystem

variable {programs : Programs} {ctx : Context} {s : Stage}

/-! ## Stages that cannot begin -/

namespace Stage

/-- What is done for a stage before its input is tried. -/
inductive BeforeInput (ctx : Context) (s : Stage) : List Exchange → Prop
  | builtin {b : Builtin} (hb : Builtin.ofName? s.executable = some b) : BeforeInput ctx s []
  | external {look errs : List Exchange} {path : Path} {handle : Option Handle} {σ : Streams}
      (hlook : (Lookup.find ctx s.executable).makes look (.external path))
      (herrs : Streams.stderrHandle.makes (.ofStage s ctx.directory false) errs (.ok handle) σ) :
    BeforeInput ctx s (look ++ errs)

/-- In the course of a trace it turns out that a stage cannot begin: the status and the diagnostic for that. -/
inductive CannotBegin (ctx : Context) (s : Stage) (trace : List Exchange) : Nat → String → Prop
  | missing {look : List Exchange} (hlook : (Lookup.find ctx s.executable).makes look .notFound)
      (hbegins : look <+: trace) : CannotBegin ctx s trace Launch.notFound (Launch.notFoundLine s)
  | input {name : String} {before attempt : List Exchange} {fault : Fault} (hname : s.stdin? = some name)
      (hbefore : s.BeforeInput ctx before)
      (hfails : FailsToOpen (ctx.resolve (.ofString name)).toString .read attempt fault)
      (hbegins : before ++ attempt <+: trace) :
    CannotBegin ctx s trace Builtin.failure (fault.about (s.executable ++ ": " ++ name))

/-- The calls that can be made for a stage that does not begin: its command is looked up, its `<` and `2>` files are
    opened, diagnostics are told and files are closed. No program is started with these (`Launch.child_not_preparing`). -/
inductive Preparing (ctx : Context) (s : Stage) : Call → Prop
  | lookUp {path : Path} (h : path ∈ Lookup.candidates ctx s.executable) :
    Preparing ctx s (.stat root path.toString true)
  | look {name : String} (h : s.stdin? = some name ∨ s.stderr? = some name) :
    Preparing ctx s (.stat root (ctx.resolve (.ofString name)).toString true)
  | input {name : String} (h : s.stdin? = some name) :
    Preparing ctx s (.openFile root (ctx.resolve (.ofString name)).toString .read)
  | errors {name : String} (h : s.stderr? = some name) :
    Preparing ctx s (.openFile root (ctx.resolve (.ofString name)).toString .truncate)
  | toErr (data : Bytes) : Preparing ctx s (.write .err data)
  | toFile (h : Handle) (data : Bytes) : Preparing ctx s (.write (.file h) data)
  | close (h : Handle) : Preparing ctx s (.close h)

/-- Where the diagnostics of a stage go that opens no other file, and what is told before them. -/
inductive Tells (ctx : Context) (s : Stage) (trace : List Exchange) : Sink → List (Sink × Bytes) → Prop
  | console (hname : s.stderr? = none) (hopened : everOpened trace = []) : Tells ctx s trace .err []
  | file {name : String} {h : Handle} (hname : s.stderr? = some name)
      (hopened : everOpened trace = [⟨h, (ctx.resolve (.ofString name)).toString, .truncate⟩]) :
    Tells ctx s trace (.file h) []
  /-- The file for diagnostics could not be opened, and that is told on the console. -/
  | lost {name : String} {attempt : List Exchange} {fault : Fault} (hname : s.stderr? = some name)
      (hfails : FailsToOpen (ctx.resolve (.ofString name)).toString .truncate attempt fault)
      (hattempt : attempt <:+: trace) (hopened : everOpened trace = []) :
    Tells ctx s trace .err [(.err, utf8Line (fault.about name))]

/-- All that was done for a stage is to tell one line, and it has a status for that if the line was taken. -/
structure OnlyTells (ctx : Context) (s : Stage) (code : Nat) (line : String) (trace : List Exchange)
    (result : Except Fault Nat) : Prop where
  preparing : ∀ e ∈ trace, s.Preparing ctx e.call
  told : ∃ sink before, s.Tells ctx trace sink before ∧
    Says (before ++ [(sink, utf8Line line)]) trace result
  status : Unrefused trace → result = .ok code

end Stage

theorem Stage.OnlyTells.of_told {code : Nat} {line : String} {trace : List Exchange} {result : Except Fault Unit}
    {sink : Sink} {before : List (Sink × Bytes)} (hpreparing : ∀ e ∈ trace, s.Preparing ctx e.call)
    (htells : s.Tells ctx trace sink before) (hlines : Says (before ++ [(sink, utf8Line line)]) trace result) :
    s.OnlyTells ctx code line trace (result.map fun _ => code) := by
  refine ⟨hpreparing, ⟨sink, before, htells, hlines.map⟩, fun htaken => ?_⟩
  cases hlines with
  | whole => rfl
  | refused hrefused => exact absurd htaken hrefused

/-- Starting a program is no preparation, since its directory is entered for that. -/
theorem Launch.child_not_preparing {path : Path} {stdin : Source} {stdout stderr : Sink} {trace : List Exchange}
    {job : Job Ending} (h : (child programs ctx s path stdin stdout stderr).makes trace (.ok job)) :
    ¬ ∀ e ∈ trace, s.Preparing ctx e.call := by
  unfold child at h
  split at h
  · cases (Job.makes_done.1 h).2
  · obtain ⟨reply, first, rest, rfl, hfirst, -⟩ := Job.makes_bind.1 h
    obtain ⟨reply', last, rfl, -⟩ := Job.makes_ask.1 hfirst
    exact fun hall => nomatch hall _ (List.mem_append_left rest List.mem_cons_self)

/-! ## Looking up a command -/

namespace Lookup

/-- Looking for an executable only looks. -/
theorem firstExecutable_makes {paths : List Path} {trace : List Exchange} {found : Option Path}
    (h : (firstExecutable paths).makes trace found) :
    ∀ e ∈ trace, e.Looks ∧ ∃ path ∈ paths, e.call = .stat root path.toString true := by
  induction paths generalizing trace with
  | nil =>
    obtain ⟨rfl, -⟩ := Job.makes_done.1 h
    exact List.forall_mem_nil _
  | cons path rest ih =>
    unfold firstExecutable at h
    obtain ⟨isFound, first, last, rfl, hfirst, hlast⟩ := Job.makes_bind.1 h
    have hhere : ∀ e ∈ first, e.Looks ∧ e.call = .stat root path.toString true := by
      unfold isExecutable at hfirst
      split at hfirst
      · obtain ⟨rfl, -⟩ := Job.makes_done.1 hfirst
        exact List.forall_mem_nil _
      · obtain ⟨reply, last, rfl, hreply⟩ := Job.makes_ask.1 hfirst
        have hend : last = [] := by
          cases reply with
          | ok kind => exact (Job.makes_done.1 hreply).1
          | error cause => exact (Job.makes_done.1 hreply).1
        subst hend
        exact List.forall_mem_singleton.2 ⟨.stat reply, rfl⟩
    refine List.forall_mem_append.2 ⟨fun e he => ?_, fun e he => ?_⟩
    · exact ⟨(hhere e he).1, path, List.mem_cons_self, (hhere e he).2⟩
    · cases isFound with
      | true =>
        obtain ⟨rfl, -⟩ := Job.makes_done.1 hlast
        cases he
      | false =>
        obtain ⟨hlooks, path', hmem, hcall⟩ := ih hlast e he
        exact ⟨hlooks, path', List.mem_cons_of_mem _ hmem, hcall⟩

/-- Looking up a command only looks, and a built-in command is known without looking. -/
theorem find_makes {trace : List Exchange} {resolution : Resolution}
    (h : (find ctx s.executable).makes trace resolution) :
    (∀ e ∈ trace, e.Looks ∧ s.Preparing ctx e.call) ∧
      ∀ b, Builtin.ofName? s.executable = some b ↔ resolution = .builtin b := by
  unfold find at h
  split at h
  · rename_i b hb
    obtain ⟨rfl, rfl⟩ := Job.makes_done.1 h
    exact ⟨List.forall_mem_nil _, fun b' => by rw [hb, Option.some.injEq, Resolution.builtin.injEq]⟩
  · rename_i hb
    obtain ⟨found, first, last, rfl, hfirst, hlast⟩ := Job.makes_bind.1 h
    have hend : last = [] ∧ ∀ b, resolution ≠ .builtin b := by
      cases found with
      | some path =>
        obtain ⟨rfl, rfl⟩ := Job.makes_done.1 hlast
        exact ⟨rfl, nofun⟩
      | none =>
        obtain ⟨rfl, rfl⟩ := Job.makes_done.1 hlast
        exact ⟨rfl, nofun⟩
    obtain ⟨rfl, hother⟩ := hend
    rw [List.append_nil]
    refine ⟨fun e he => ?_, fun b => ⟨fun hb' => ?_, fun hr => absurd hr (hother b)⟩⟩
    · obtain ⟨hlooks, path, hmem, hcall⟩ := firstExecutable_makes hfirst e he
      exact ⟨hlooks, hcall ▸ .lookUp hmem⟩
    · cases hb.symm.trans hb'

theorem makes_of_builtin {trace : List Exchange} {resolution : Resolution} {b : Builtin}
    (hb : Builtin.ofName? s.executable = some b) (h : (find ctx s.executable).makes trace resolution) : trace = [] := by
  unfold find at h
  rw [hb] at h
  exact (Job.makes_done.1 h).1

end Lookup

/-! ## Diagnostics -/

section Diagnostics

open Streams

variable {toPipe : Bool} {trace errs : List Exchange} {σ : Streams} {r : Except Fault (Option Handle)}

theorem FailsToOpen.preparing {name : String} {mode : Mode} {fault : Fault}
    (h : FailsToOpen (ctx.resolve (.ofString name)).toString mode trace fault)
    (hname : s.stdin? = some name ∧ mode = .read ∨ s.stderr? = some name ∧ mode = .truncate) :
    ∀ e ∈ trace, s.Preparing ctx e.call := by
  have hlook : s.stdin? = some name ∨ s.stderr? = some name := hname.imp And.left And.left
  cases h with
  | nul => exact List.forall_mem_nil _
  | directory => exact List.forall_mem_singleton.2 (.look hlook)
  | refused =>
    refine List.forall_mem_cons.2 ⟨.look hlook, List.forall_mem_singleton.2 ?_⟩
    rcases hname with ⟨hname, rfl⟩ | ⟨hname, rfl⟩
    · exact .input hname
    · exact .errors hname

theorem preparing_of_writes {handle : Option Handle} (h : ∀ e ∈ trace, e.WritesTo (sinkOf handle)) :
    ∀ e ∈ trace, s.Preparing ctx e.call := by
  intro e he
  obtain ⟨data, hcall⟩ := h e he
  rw [hcall]
  cases handle with
  | none => exact .toErr data
  | some handle => exact .toFile handle data

/-- Asking for the file for diagnostics opens this file or tells that it cannot be opened. -/
theorem Streams.Asked.tells (h : Asked (ofStage s ctx.directory toPipe) errs r σ) :
    (∀ e ∈ errs, s.Preparing ctx e.call) ∧ ∃ sink before, s.Tells ctx errs sink before ∧ Says before errs r ∧
      ∀ handle, r = .ok handle → sinkOf handle = sink := by
  cases h with
  | inherited hname =>
    rw [ofStage_stderr] at hname
    exact ⟨List.forall_mem_nil _, .err, [], .console hname rfl, .of_looks (List.forall_mem_nil _), by rintro _ ⟨⟩; rfl⟩
  | opened g hname =>
    rw [ofStage_stderr] at hname
    refine ⟨List.forall_mem_cons.2 ⟨.look (.inr hname), List.forall_mem_singleton.2 (.errors hname)⟩, .file g, [],
      .file hname rfl, .whole ?_ rfl, by rintro _ ⟨⟩; rfl⟩
    exact List.forall_mem_cons.2 ⟨rfl, List.forall_mem_singleton.2 rfl⟩
  | @lost name attempt told fault r hname hfails htold =>
    rw [ofStage_stderr] at hname
    obtain ⟨hlines, hwrites⟩ := lineTo_says rfl htold
    refine ⟨List.forall_mem_append.2 ⟨hfails.preparing (.inr ⟨hname, rfl⟩), preparing_of_writes hwrites⟩, .err, _,
      .lost hname hfails (List.prefix_append _ _).isInfix ?_, ?_, ?_⟩
    · rw [everOpened_append, everOpened_of_looks hfails.looks, everOpened_of_writes hwrites, List.append_nil]
    · exact (Says.of_looks (a := ()) hfails.looks).append hlines.map
    · intro handle hr
      cases r with
      | ok done =>
        cases hr
        rfl
      | error fault => cases hr

/-- What the streams are after the file for diagnostics was asked for. -/
theorem Streams.Asked.unchanged (h : Asked (ofStage s ctx.directory toPipe) errs r σ) :
    σ.unwritten = [] ∧ σ.pathOf = (ofStage s ctx.directory toPipe).pathOf ∧
      ∀ name, s.stdin? = some name → σ.Waits .stdin name := by
  rw [← ofStage_stdin s ctx.directory toPipe]
  cases h <;> exact ⟨rfl, rfl, fun name hname => ⟨hname, rfl, nofun⟩⟩

theorem Stage.Tells.insert {sink : Sink} {before : List (Sink × Bytes)} {first rest : List Exchange}
    (h : s.Tells ctx trace sink before) (hfirst : everOpened first = []) (hrest : everOpened rest = []) :
    s.Tells ctx (first ++ trace ++ rest) sink before := by
  have hopened : everOpened (first ++ trace ++ rest) = everOpened trace := by simp [hfirst, hrest]
  cases h with
  | console hname hnone => exact .console hname (hopened.trans hnone)
  | file hname hone => exact .file hname (hopened.trans hone)
  | lost hname hfails hattempt hnone =>
    exact .lost hname hfails (hattempt.trans (List.infix_append _ _ _)) (hopened.trans hnone)

end Diagnostics

/-! ## The course of a stage that cannot begin -/

section Course

open Streams

variable {line : String} {toPipe : Bool} {trace : List Exchange} {result : Except Fault Unit}

/-- Exchanges of a stage that only look for something. -/
def Stage.Looks (ctx : Context) (s : Stage) (trace : List Exchange) : Prop :=
  ∀ e ∈ trace, e.Looks ∧ s.Preparing ctx e.call

/-- The way to a line of diagnostics. Before and after the file for diagnostics is asked for, something is looked at
    which shows that the line has to be told. -/
inductive Stage.Course (ctx : Context) (s : Stage) (toPipe : Bool) (line : String) :
    List Exchange → Except Fault Unit → Prop
  | told {first errs second told : List Exchange} {handle : Option Handle} {σ after : Streams} {result : Except Fault Unit}
      (hfirst : s.Looks ctx first)
      (herrs : makes stderrHandle (.ofStage s ctx.directory toPipe) errs (.ok handle) σ) (hsecond : s.Looks ctx second)
      (htold : makes (lineTo (sinkOf handle) line) σ told result after) :
    Course ctx s toPipe line (first ++ errs ++ second ++ told) result
  | lost {first errs : List Exchange} {fault : Fault} {σ : Streams} (hfirst : s.Looks ctx first)
      (herrs : makes stderrHandle (.ofStage s ctx.directory toPipe) errs (.error fault) σ) :
    Course ctx s toPipe line (first ++ errs) (.error fault)

theorem Stage.Looks.looks (h : s.Looks ctx trace) : ∀ e ∈ trace, e.Looks := fun e he => (h e he).1

theorem Stage.Looks.preparing (h : s.Looks ctx trace) : ∀ e ∈ trace, s.Preparing ctx e.call := fun e he => (h e he).2

namespace Stage.Course

/-- A line is told right after it turned out that it has to be. -/
theorem of_error {first rest : List Exchange} {after : Streams} (hfirst : s.Looks ctx first)
    (h : makes (error line) (.ofStage s ctx.directory toPipe) rest result after) :
    s.Course ctx toPipe line (first ++ rest) result := by
  rw [error_eq] at h
  rcases makes_bind.1 h with ⟨handle, σ, errs, told, rfl, herrs, htold⟩ | ⟨fault, rfl, herrs⟩
  · have hcourse := Course.told hfirst herrs (List.forall_mem_nil _) htold
    rwa [List.append_nil, List.append_assoc] at hcourse
  · exact .lost hfirst herrs

/-- A line is told once the file for diagnostics was asked for and something else has turned out. -/
theorem of_error_after {first errs second rest : List Exchange} {handle : Option Handle} {σ after : Streams}
    (hfirst : s.Looks ctx first) (herrs : makes stderrHandle (.ofStage s ctx.directory toPipe) errs (.ok handle) σ)
    (hsecond : s.Looks ctx second) (h : makes (error line) σ rest result after) :
    s.Course ctx toPipe line (first ++ errs ++ second ++ rest) result := by
  have hunused := unused_ofStage s ctx.directory toPipe
  have hasked := stderrHandle_asked hunused herrs
  rw [error_eq] at h
  rcases makes_bind.1 h with ⟨handle', σ', again, told, rfl, hagain, htold⟩ | ⟨fault, rfl, hagain⟩
  · obtain ⟨rfl, hsame, rfl⟩ := hasked.again hunused hagain
    cases hsame
    exact .told hfirst herrs hsecond htold
  · obtain ⟨-, hsame, -⟩ := hasked.again hunused hagain
    cases hsame

/-- All that is done on the way is to tell the line. -/
theorem onlyTells (h : s.Course ctx toPipe line trace result) (code : Nat) :
    s.OnlyTells ctx code line trace (result.map fun _ => code) := by
  have hunused := unused_ofStage s ctx.directory toPipe
  cases h with
  | @told first errs second told handle σ after result hfirst herrs hsecond htold =>
    have hasked := stderrHandle_asked hunused herrs
    obtain ⟨hpreparing, sink, before, htells, hlines, hsink⟩ := hasked.tells
    obtain ⟨hsaid, hwrites⟩ := lineTo_says hasked.unchanged.1 htold
    rw [hsink handle rfl] at hsaid
    have hall : ∀ e ∈ first ++ errs ++ second ++ told, s.Preparing ctx e.call := by
      simp only [List.forall_mem_append]
      exact ⟨⟨⟨hfirst.preparing, hpreparing⟩, hsecond.preparing⟩, preparing_of_writes hwrites⟩
    have hplace : s.Tells ctx (first ++ errs ++ second ++ told) sink before := by
      rw [List.append_assoc]
      refine htells.insert (everOpened_of_looks hfirst.looks) ?_
      rw [everOpened_append, everOpened_of_looks hsecond.looks, everOpened_of_writes hwrites, List.append_nil]
    have hbefore : Says before (first ++ errs ++ second) (.ok () : Except Fault Unit) := by
      have hstart := (Says.of_looks (a := ()) hfirst.looks).append hlines
      have hboth := hstart.append (Says.of_looks (a := ()) hsecond.looks)
      rwa [List.nil_append, List.append_nil] at hboth
    exact .of_told hall hplace (hbefore.append hsaid)
  | @lost first errs fault σ hfirst herrs =>
    obtain ⟨hpreparing, sink, before, htells, hlines, -⟩ := (stderrHandle_asked hunused herrs).tells
    have hplace : s.Tells ctx (first ++ errs ++ []) sink before := htells.insert (everOpened_of_looks hfirst.looks) rfl
    rw [List.append_nil] at hplace
    exact .of_told (List.forall_mem_append.2 ⟨hfirst.preparing, hpreparing⟩) hplace
      (((Says.of_looks (a := ()) hfirst.looks).append hlines).stop _)

/-- What is found at a path is the same after that, unless it is where the file for diagnostics is written. -/
theorem look_eq {w w' : World} {handles : List Handle} {path : String} (h : s.Course ctx toPipe line trace result)
    (hserves : w.Serves (trace ++ handles.map fun h => ⟨.close h, ()⟩) w')
    (hclear : World.Clear ((ofStage s ctx.directory toPipe).FileAt .stderr) path World.reading w) :
    w'.files.look path = w.files.look path := by
  have hguarded : Guarded (ofStage s ctx.directory toPipe) (ofStage s ctx.directory toPipe) w := nofun
  obtain ⟨w₁, hcourse, hcloses⟩ := World.serves_append.1 hserves
  rw [files_of_serves_close hcloses]
  -- Without what was only looked at, the line is told in one go.
  have htold : ∃ rest last, makes (error line) (ofStage s ctx.directory toPipe) rest result last ∧ w.Serves rest w₁ := by
    rw [error_eq]
    cases h with
    | @told first errs second told handle σ after result hfirst herrs hsecond htold =>
      simp only [World.serves_append] at hcourse
      obtain ⟨w₄, ⟨w₃, ⟨w₂, hw₂, hw₃⟩, hw₄⟩, hw₁⟩ := hcourse
      obtain rfl := World.serves_of_looks hfirst.looks hw₂
      obtain rfl := World.serves_of_looks hsecond.looks hw₄
      exact ⟨errs ++ told, after, makes_bind.2 (.inl ⟨handle, σ, errs, told, rfl, herrs, htold⟩),
        World.serves_append.2 ⟨_, hw₃, hw₁⟩⟩
    | @lost first errs fault σ hfirst herrs =>
      obtain ⟨w₂, hw₂, hw₁⟩ := World.serves_append.1 hcourse
      obtain rfl := World.serves_of_looks hfirst.looks hw₂
      exact ⟨errs, σ, makes_bind.2 (.inr ⟨fault, rfl, herrs⟩), hw₁⟩
  obtain ⟨rest, last, hmakes, hrest⟩ := htold
  exact (runs_of_makes hmakes hrest (error_beside .rfl hclear.linked hguarded line)).beside.look hclear

end Stage.Course

end Course

/-! ## Apart from pipes -/

/-- A call on a pipe of the stage that makes it, which the world does not answer. -/
def Exchange.onPipe (e : Exchange) : Bool :=
  match e.call with
  | .read .pipe _ => true
  | .write .pipe _ => true
  | .hangUp .pipe => true
  | _ => false

theorem Exchange.onPipe_iff {e : Exchange} : e.onPipe = true ↔ e.call.OnPipe := by
  unfold onPipe Call.OnPipe
  split <;> simp_all

/-- What was asked of the world in the course of a trace. -/
def offPipe (trace : List Exchange) : List Exchange :=
  trace.filter (!·.onPipe)

section OffPipe

variable {trace first rest all : List Exchange} {code : Nat} {line : String}

@[simp] theorem offPipe_nil : offPipe [] = [] := rfl

@[simp] theorem offPipe_append : offPipe (trace ++ rest) = offPipe trace ++ offPipe rest := List.filter_append ..

theorem Stage.Preparing.not_onPipe {c : Call} (h : s.Preparing ctx c) : ¬ c.OnPipe := by
  cases h <;> exact id

theorem offPipe_of_preparing (h : ∀ e ∈ trace, s.Preparing ctx e.call) : offPipe trace = trace := by
  refine List.filter_eq_self.2 fun e he => ?_
  rw [Bool.not_eq_true', Bool.eq_false_iff, Ne, Exchange.onPipe_iff]
  exact (h e he).not_onPipe

/-- What a stage does first is seen first, if it is no matter of pipes. -/
theorem prefix_of_offPipe (h : offPipe (first ++ rest) <+: all) (hfirst : ∀ e ∈ first, s.Preparing ctx e.call) :
    first <+: all := by
  rw [offPipe_append, offPipe_of_preparing hfirst] at h
  exact (List.prefix_append _ _).trans h

end OffPipe

/-! ## Reaching the input -/

section Reaching

open Streams

variable {name line : String} {toPipe : Bool} {b : Builtin} {trace attempt look errs all : List Exchange} {fault : Fault}
  {handle : Option Handle} {σ after : Streams}

theorem Stage.BeforeInput.preparing (h : s.BeforeInput ctx trace) : ∀ e ∈ trace, s.Preparing ctx e.call := by
  cases h with
  | builtin => exact List.forall_mem_nil _
  | external hlook herrs =>
    have hasked := stderrHandle_asked (unused_ofStage _ _ _) herrs
    exact List.forall_mem_append.2 ⟨fun e he => ((Lookup.find_makes hlook).1 e he).2, hasked.tells.1⟩

theorem Stage.CannotBegin.mono {code : Nat} (h : s.CannotBegin ctx trace code line) (hbegins : trace <+: all) :
    s.CannotBegin ctx all code line := by
  cases h with
  | missing hlook hbegins' => exact .missing hlook (hbegins'.trans hbegins)
  | input hname hbefore hfails hbegins' => exact .input hname hbefore hfails (hbegins'.trans hbegins)

/-- That a stage cannot begin is seen without what it does with pipes. -/
theorem Stage.CannotBegin.offPipe {code : Nat} (h : s.CannotBegin ctx trace code line) :
    s.CannotBegin ctx (offPipe trace) code line := by
  have hkept : ∀ {first : List Exchange}, (∀ e ∈ first, s.Preparing ctx e.call) → first <+: trace →
      first <+: Conch.offPipe trace := by
    intro first hfirst hbegins
    rw [← offPipe_of_preparing hfirst]
    exact hbegins.filter _
  cases h with
  | missing hlook hbegins => exact .missing hlook (hkept (fun e he => ((Lookup.find_makes hlook).1 e he).2) hbegins)
  | input hname hbefore hfails hbegins =>
    have hattempt := hfails.preparing (.inl ⟨hname, rfl⟩)
    exact .input hname hbefore hfails (hkept (List.forall_mem_append.2 ⟨hbefore.preparing, hattempt⟩) hbegins)

/-- Asking for the input only looks for it, or opens it. -/
theorem stdinHandle_preparing {result : Except Fault (Option Handle)} (hname : s.stdin? = some name)
    (hwaits : σ.Waits .stdin name) (hpath : σ.pathOf name = (ctx.resolve (.ofString name)).toString)
    (h : makes stdinHandle σ trace result after) : ∀ e ∈ trace, s.Preparing ctx e.call := by
  have hopens : ∀ {result : Except Fault Handle} {after : Streams}, makes (openOwned name .read) σ trace result after →
      ∀ e ∈ trace, s.Preparing ctx e.call := by
    intro result after hopen
    have hopens := (openOwned_opens (by decide) hopen).1
    rw [hpath] at hopens
    cases hopens with
    | failed hfails => exact hfails.preparing (.inl ⟨hname, rfl⟩)
    | opened h => exact List.forall_mem_cons.2 ⟨.look (.inl hname), List.forall_mem_singleton.2 (.input hname)⟩
  unfold stdinHandle at h
  simp only [makes_get_bind, show σ.redirects.stdin = some name from hwaits.file, show σ.stdin = none from hwaits.handle] at h
  rcases makes_bind.1 h with ⟨h', middle, first, rest, rfl, hopen, hrest⟩ | ⟨fault, rfl, hopen⟩
  · simp only [makes_modify_bind, makes_pure] at hrest
    obtain ⟨rfl, -, -⟩ := hrest
    rw [List.append_nil] at hopens ⊢
    exact hopens hopen
  · exact hopens hopen

/-- Once it is seen that the input cannot be opened, asking for it has come to that. -/
theorem stdinHandle_fails {first rest : List Exchange} {result : Except Fault (Option Handle)}
    (hname : s.stdin? = some name) (hwaits : σ.Waits .stdin name)
    (hpath : σ.pathOf name = (ctx.resolve (.ofString name)).toString)
    (hfails : FailsToOpen (ctx.resolve (.ofString name)).toString .read attempt fault)
    (hattempt : attempt <+: all) (hall : offPipe (first ++ rest) <+: all) (h : makes stdinHandle σ first result after) :
    first = attempt ∧ result = .error fault ∧ after = σ := by
  rw [← hpath] at hfails
  have hfirst := prefix_of_offPipe hall (stdinHandle_preparing hname hwaits hpath h)
  exact makes_unique h (makes_stdinHandle_of_fails hwaits hfails) hfirst hattempt

/-- A built-in command whose input cannot be opened tells so and does nothing else. -/
theorem Builtin.run_course {result : Except Fault (BuiltinEnd × Context)} (hb : ofName? s.executable = some b)
    (hlook : s.Looks ctx look) (hname : s.stdin? = some name)
    (hfails : FailsToOpen (ctx.resolve (.ofString name)).toString .read attempt fault)
    (hattempt : attempt <+: all) (hall : offPipe trace <+: all)
    (h : makes (b.run s.args ctx) (.ofStage s ctx.directory toPipe) trace result after) :
    ∃ r, s.Course ctx toPipe (fault.about (s.executable ++ ": " ++ name)) (look ++ trace) r ∧
      result = r.map fun _ => (.status failure, ctx) := by
  have hstdin := (ofStage_stdin s ctx.directory toPipe).trans hname
  unfold Builtin.run at h
  obtain ⟨r, middle, first, rest, rfl, hinput, h⟩ := makes_attempt_bind.1 h
  have hwaits : (ofStage s ctx.directory toPipe).Waits .stdin name := ⟨hstdin, rfl, nofun⟩
  obtain ⟨rfl, rfl, rfl⟩ := stdinHandle_fails hname hwaits rfl hfails hattempt hall hinput
  have hlooks : s.Looks ctx (look ++ first) := List.forall_mem_append.2
    ⟨hlook, fun e he => ⟨hfails.looks e he, hfails.preparing (.inl ⟨hname, rfl⟩) e he⟩⟩
  rw [← List.append_assoc, Builtin.name_of_ofName? hb]
  simp only [makes_get_bind, hstdin, Option.getD_some] at h
  obtain ⟨r, herror, rfl⟩ := makes_bind_pure h
  exact ⟨r, .of_error hlooks herror, rfl⟩

/-- Launching a program whose input cannot be opened comes to an error before anything is started. -/
theorem Launch.launch_fails {path : Path} {stdin : Source} {stdout : Sink} {rest : List Exchange} {last : Streams}
    {result : Except Fault (Except LaunchError (Job Ending))} (hname : s.stdin? = some name)
    (herrs : makes stderrHandle (.ofStage s ctx.directory false) errs (.ok handle) σ)
    (hfails : FailsToOpen (ctx.resolve (.ofString name)).toString .read attempt fault)
    (hattempt : errs ++ attempt <+: all) (hall : offPipe (trace ++ rest) <+: all)
    (h : makes (launch programs ctx s path stdin stdout) (.ofStage s ctx.directory false) trace result last) :
    trace = errs ++ attempt ∧ last = σ ∧
      result = .ok (.error ⟨fault.about (s.executable ++ ": " ++ name), Builtin.failure⟩) := by
  have hunused := unused_ofStage s ctx.directory false
  have hasked : ∀ {errs r σ}, makes stderrHandle (.ofStage s ctx.directory false) errs r σ →
      ∀ e ∈ errs, s.Preparing ctx e.call := fun herrs => (stderrHandle_asked hunused herrs).tells.1
  have hsame := (stderrHandle_asked hunused herrs).unchanged
  unfold launch at h
  rcases makes_bind.1 h with ⟨handle', σ', errs', last', rfl, herrs', hlast⟩ | ⟨fault', rfl, herrs'⟩
  · rw [List.append_assoc] at hall
    obtain ⟨rfl, -, rfl⟩ := makes_unique herrs' herrs (prefix_of_offPipe hall (hasked herrs'))
      ((List.prefix_append _ _).trans hattempt)
    obtain ⟨r, middle, first, second, rfl, hinput, hend⟩ := makes_attempt_bind.1 hlast
    obtain ⟨more, rfl⟩ := hattempt
    -- What comes after the file for diagnostics begins with the attempt to open the input.
    rw [offPipe_append, offPipe_of_preparing (hasked herrs), List.append_assoc, List.append_assoc,
      List.prefix_append_right_inj] at hall
    have hpath : σ'.pathOf name = (ctx.resolve (.ofString name)).toString := congrFun hsame.2.1 name
    obtain ⟨rfl, rfl, rfl⟩ :=
      stdinHandle_fails hname (hsame.2.2 name hname) hpath hfails (List.prefix_append _ _) hall hinput
    obtain ⟨rfl, rfl, rfl⟩ := makes_pure.1 hend
    rw [hname, List.append_nil]
    exact ⟨rfl, rfl, rfl⟩
  · obtain ⟨-, hsame, -⟩ := makes_unique herrs' herrs (prefix_of_offPipe hall (hasked herrs'))
      ((List.prefix_append _ _).trans hattempt)
    cases hsame

/-- A program whose input cannot be opened is not started, and that is told. -/
theorem Launch.launch_course {α : Type} {path : Path} {stdin : Source} {stdout : Sink}
    {f : Except LaunchError (Job Ending) → StageM α} {g : LaunchError → α} {result : Except Fault α}
    (hf : ∀ e, f (.error e) = do
      Streams.error e.message
      return g e)
    (hlook : s.Looks ctx look) (hname : s.stdin? = some name)
    (herrs : makes stderrHandle (.ofStage s ctx.directory false) errs (.ok handle) σ)
    (hfails : FailsToOpen (ctx.resolve (.ofString name)).toString .read attempt fault)
    (hattempt : errs ++ attempt <+: all) (hall : offPipe trace <+: all)
    (h : makes (launch programs ctx s path stdin stdout >>= f) (.ofStage s ctx.directory false) trace result after) :
    ∃ r, s.Course ctx false (fault.about (s.executable ++ ": " ++ name)) (look ++ trace) r ∧
      result = r.map fun _ => g ⟨fault.about (s.executable ++ ": " ++ name), Builtin.failure⟩ := by
  have hsecond : s.Looks ctx attempt := fun e he => ⟨hfails.looks e he, hfails.preparing (.inl ⟨hname, rfl⟩) e he⟩
  rcases makes_bind.1 h with ⟨launched, middle, first, rest, rfl, hlaunch, hrest⟩ | ⟨fault', rfl, hlaunch⟩
  · obtain ⟨rfl, rfl, hlaunched⟩ := launch_fails hname herrs hfails hattempt hall hlaunch
    cases hlaunched
    rw [hf] at hrest
    rw [← List.append_assoc, ← List.append_assoc]
    obtain ⟨r, herror, rfl⟩ := makes_bind_pure hrest
    exact ⟨r, .of_error_after hlook herrs hsecond herror, rfl⟩
  · rw [← List.append_nil trace] at hall
    obtain ⟨-, -, hlaunched⟩ := launch_fails hname herrs hfails hattempt hall hlaunch
    cases hlaunched

end Reaching

/-! ## Stages alone and in pipelines -/

section Stages

open Streams

variable {code : Nat} {line : String} {trace look all : List Exchange} {resolution : Resolution}

theorem Job.makes.of_closing {α : Type} {x : StageM α} {σ : Streams} {r : Except Fault α}
    (h : (x.closing σ).makes trace r) :
    ∃ first after, trace = first ++ after.owned.map (fun h => ⟨.close h, ()⟩) ∧ x.makes σ first r after := by
  unfold StageM.closing at h
  obtain ⟨⟨result, after⟩, first, rest, rfl, hfirst, hrest⟩ := makes_bind.1 h
  obtain ⟨closed, second, last, rfl, hsecond, hlast⟩ := makes_bind.1 hrest
  obtain ⟨rfl, rfl⟩ := makes_done.1 hlast
  obtain ⟨rfl, -⟩ := Streams.close_makes (makes_iff.2 hsecond)
  rw [List.append_nil]
  exact ⟨first, after, rfl, makes_iff.2 hfirst⟩

/-- Why a stage cannot begin, once its name was looked up. -/
inductive Stage.Stopped (ctx : Context) (s : Stage) (all : List Exchange) : Resolution → Nat → String → Prop
  | missing : Stopped ctx s all .notFound Launch.notFound (Launch.notFoundLine s)
  | builtin {b : Builtin} {name : String} {attempt : List Exchange} {fault : Fault}
      (hb : Builtin.ofName? s.executable = some b) (hname : s.stdin? = some name)
      (hfails : FailsToOpen (ctx.resolve (.ofString name)).toString .read attempt fault) (hattempt : attempt <+: all) :
    Stopped ctx s all (.builtin b) Builtin.failure (fault.about (s.executable ++ ": " ++ name))
  | external {path : Path} {name : String} {errs attempt : List Exchange} {fault : Fault} {handle : Option Handle}
      {σ : Streams} (hname : s.stdin? = some name)
      (herrs : makes stderrHandle (.ofStage s ctx.directory false) errs (.ok handle) σ)
      (hfails : FailsToOpen (ctx.resolve (.ofString name)).toString .read attempt fault)
      (hattempt : errs ++ attempt <+: all) :
    Stopped ctx s all (.external path) Builtin.failure (fault.about (s.executable ++ ": " ++ name))

/-- Looking up the name of a stage that cannot begin has come to what shows that. -/
theorem Stage.CannotBegin.stopped (h : s.CannotBegin ctx (look ++ all) code line)
    (hlook : (Lookup.find ctx s.executable).makes look resolution) : s.Stopped ctx all resolution code line := by
  have hbegins : look <+: look ++ all := List.prefix_append _ _
  cases h with
  | missing hmissing hbegins' =>
    obtain ⟨rfl, rfl⟩ := Job.makes_unique hlook hmissing hbegins hbegins'
    exact .missing
  | input hname hbefore hfails hall =>
    cases hbefore with
    | @builtin b hb =>
      obtain rfl := ((Lookup.find_makes hlook).2 b).1 hb
      obtain rfl : look = [] := Lookup.makes_of_builtin hb hlook
      exact .builtin hb hname hfails hall
    | @external look' errs path handle σ hlook' herrs =>
      rw [List.append_assoc] at hall
      obtain ⟨rfl, rfl⟩ := Job.makes_unique hlook hlook' hbegins ((List.prefix_append _ _).trans hall)
      exact .external hname herrs hfails ((List.prefix_append_right_inj _).1 hall)

theorem Lookup.find_looks (h : (Lookup.find ctx s.executable).makes look resolution) : s.Looks ctx look :=
  (find_makes h).1

/-- What a stage on its own does that cannot begin. -/
theorem Stage.act_course {result : Except Fault (Outcome × Context)} {after : Streams} (hlook : s.Looks ctx look)
    (hstopped : s.Stopped ctx all resolution code line) (hall : offPipe trace <+: all)
    (h : makes (s.act programs ctx resolution) (.ofStage s ctx.directory false) trace result after) :
    ∃ r, s.Course ctx false line (look ++ trace) r ∧ result = r.map fun _ => (.status code, ctx) := by
  cases hstopped with
  | missing =>
    obtain ⟨r, herror, rfl⟩ := makes_bind_pure h
    exact ⟨r, .of_error hlook herror, rfl⟩
  | builtin hb hname hfails hattempt =>
    obtain ⟨ran, hrun, rfl⟩ := makes_bind_pure (f := fun ran : BuiltinEnd × Context => (ran.1.outcome, ran.2)) h
    obtain ⟨r, hcourse, rfl⟩ := Builtin.run_course hb hlook hname hfails hattempt hall hrun
    exact ⟨r, hcourse, by cases r <;> rfl⟩
  | external hname herrs hfails hattempt =>
    exact Launch.launch_course (g := fun e => (.status e.status, ctx)) (fun _ => rfl) hlook hname herrs hfails hattempt hall h

/-- A stage on its own that cannot begin takes its course and closes its files. -/
theorem Stage.run_course {outcome : Outcome} {after : Context} (h : (s.run programs ctx).makes trace (outcome, after))
    (hcannot : s.CannotBegin ctx trace code line) :
    ∃ (course : List Exchange) (handles : List Handle) (r : Except Fault Unit),
      trace = course ++ handles.map (fun h => ⟨.close h, ()⟩) ∧ s.Course ctx false line course r ∧
      (outcome, after) = settle ctx (r.map fun _ => (.status code, ctx)) := by
  unfold Stage.run at h
  obtain ⟨resolution, look, rest, rfl, hlook, hrest⟩ := Job.makes_bind.1 h
  obtain ⟨result, first, last, rfl, hclosing, hlast⟩ := Job.makes_bind.1 hrest
  obtain ⟨course, σ, rfl, hact⟩ := hclosing.of_closing
  have hsettled : last = [] ∧ (outcome, after) = settle ctx result := by
    cases result with
    | ok result => exact Job.makes_done.1 hlast
    | error fault => exact Job.makes_done.1 hlast
  obtain ⟨rfl, hsettled⟩ := hsettled
  have hlooks := Lookup.find_looks hlook
  have hseen := hcannot.offPipe
  rw [List.append_nil, offPipe_append, offPipe_of_preparing hlooks.preparing, offPipe_append] at hseen
  obtain ⟨r, hcourse, rfl⟩ := act_course hlooks (hseen.stopped hlook) (List.prefix_append _ _) hact
  exact ⟨look ++ course, σ.owned, r, by rw [List.append_nil, List.append_assoc], hcourse, hsettled⟩

/-- Starting a stage of a pipeline that cannot begin and is no built-in command. -/
theorem Network.startStage_course {isFirst isLast : Bool} {inputSize outputSize : Nat} {started : Started}
    (hcannot : s.CannotBegin ctx (offPipe trace) code line) (hnot : Builtin.ofName? s.executable = none)
    (h : (startStage programs ctx isFirst isLast inputSize outputSize s).makes trace started) :
    ∃ r owned, s.Course ctx false line trace r ∧
      started = (r.map fun _ => absent code owned).mapError fun fault => (fault, owned) := by
  unfold startStage at h
  obtain ⟨resolution, look, rest, rfl, hlook, hrest⟩ := Job.makes_bind.1 h
  have hlooks := Lookup.find_looks hlook
  rw [offPipe_append, offPipe_of_preparing hlooks.preparing] at hcannot
  cases hcannot.stopped hlook with
  | missing =>
    obtain ⟨⟨result, σ⟩, told, last, rfl, htold, hlast⟩ := Job.makes_bind.1 hrest
    have hend : last = [] ∧ started =
        (result.map fun _ => absent Launch.notFound σ.owned).mapError fun fault => (fault, σ.owned) := by
      cases result with
      | ok done => exact Job.makes_done.1 hlast
      | error fault => exact Job.makes_done.1 hlast
    obtain ⟨rfl, hstarted⟩ := hend
    rw [List.append_nil]
    exact ⟨result, σ.owned, .of_error hlooks (makes_iff.2 htold), hstarted⟩
  | builtin hb => cases hnot.symm.trans hb
  | external hname herrs hfails hattempt =>
    obtain ⟨⟨result, σ⟩, first, last, rfl, hfirst, hlast⟩ := Job.makes_bind.1 hrest
    have hall : offPipe first <+: offPipe (first ++ last) := by
      rw [offPipe_append]
      exact List.prefix_append _ _
    obtain ⟨r, hcourse, rfl⟩ := Launch.launch_course (g := fun e => .error e.status) (fun _ => rfl) hlooks hname herrs
      hfails hattempt hall (makes_iff.2 hfirst)
    have hend : last = [] ∧ started =
        (r.map fun _ => absent Builtin.failure σ.owned).mapError fun fault => (fault, σ.owned) := by
      cases r with
      | ok done => exact Job.makes_done.1 hlast
      | error fault => exact Job.makes_done.1 hlast
    obtain ⟨rfl, hstarted⟩ := hend
    rw [List.append_nil]
    exact ⟨r, σ.owned, hcourse, hstarted⟩

/-- What a built-in command of a pipeline does that cannot begin. -/
theorem Network.builtinJob_course {b : Builtin} {isLast : Bool} {e : StageEnd}
    (hcannot : s.CannotBegin ctx (offPipe trace) code line) (hb : Builtin.ofName? s.executable = some b)
    (h : (builtinJob b s ctx isLast).makes trace e) :
    ∃ r, s.Course ctx (!isLast) line trace r ∧ e.result = r.map fun _ => code := by
  have hlook : (Lookup.find ctx s.executable).makes [] (.builtin b) := by
    unfold Lookup.find
    rw [hb]
    exact Job.makes_done.2 ⟨rfl, rfl⟩
  unfold builtinJob at h
  obtain ⟨⟨result, σ⟩, first, last, rfl, hfirst, hlast⟩ := Job.makes_bind.1 h
  have hall : offPipe first <+: offPipe (first ++ last) := by
    rw [offPipe_append]
    exact List.prefix_append _ _
  rw [← List.nil_append (offPipe _)] at hcannot
  cases hcannot.stopped hlook with
  | builtin hb' hname hfails hattempt =>
    obtain ⟨r, hcourse, rfl⟩ := Builtin.run_course hb (List.forall_mem_nil _) hname hfails hattempt hall (makes_iff.2 hfirst)
    have hend : last = [] ∧ e.result = r.map fun _ => Builtin.failure := by
      cases r with
      | ok done => exact (Job.makes_done.1 hlast).imp_right (congrArg StageEnd.result)
      | error fault => exact (Job.makes_done.1 hlast).imp_right (congrArg StageEnd.result)
    obtain ⟨rfl, hresult⟩ := hend
    rw [List.append_nil]
    exact ⟨r, hcourse, hresult⟩

end Stages

end Conch
