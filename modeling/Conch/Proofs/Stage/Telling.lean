-- SUMMARY: Telling a line of diagnostics, call by call: what is given to which sink, and what comes before it.
import Conch.Proofs.Stage.Output

/-!
# Telling a line

`Says` sets what is given to sinks in the course of a trace beside what should be given:
it is all of it unless something was refused, and a refusal ends the telling in a fault.

A stage that has not used its streams yet opens its file for diagnostics first. Where a
line goes and what is told before it depends on how that went: `Streams.Asked` lists the
ways. `FailsToOpen` lists those in which a file cannot be opened.
-/

namespace Conch

open StageM FileSystem

variable {α β : Type}

/-! ## Traces that begin alike -/

/-- The replies decide what a job does, so of two traces that begin alike neither goes on after the other. -/
theorem Job.makes_unique {j : Job α} {trace trace' all : List Exchange} {a a' : α} (h : j.makes trace a)
    (h' : j.makes trace' a') (hbegins : trace <+: all) (hbegins' : trace' <+: all) : trace = trace' ∧ a = a' := by
  induction j generalizing trace trace' all with
  | done b =>
    obtain ⟨rfl, rfl⟩ := makes_done.1 h
    obtain ⟨rfl, rfl⟩ := makes_done.1 h'
    exact ⟨rfl, rfl⟩
  | ask c resume ih =>
    obtain ⟨reply, rest, rfl, hrest⟩ := makes_ask.1 h
    obtain ⟨reply', rest', rfl, hrest'⟩ := makes_ask.1 h'
    obtain ⟨more, rfl⟩ := hbegins
    rw [List.cons_append] at hbegins'
    obtain ⟨hsame, htail⟩ := List.cons_prefix_cons.1 hbegins'
    cases hsame
    obtain ⟨rfl, rfl⟩ := ih _ hrest hrest' (List.prefix_append _ _) htail
    exact ⟨rfl, rfl⟩

theorem StageM.makes_unique {x : StageM α} {σ after after' : Streams} {trace trace' all : List Exchange}
    {r r' : Except Fault α} (h : makes x σ trace r after) (h' : makes x σ trace' r' after') (hbegins : trace <+: all)
    (hbegins' : trace' <+: all) : trace = trace' ∧ r = r' ∧ after = after' := by
  obtain ⟨htrace, hresult⟩ := Job.makes_unique (makes_iff.1 h) (makes_iff.1 h') hbegins hbegins'
  exact ⟨htrace, Prod.mk.inj hresult⟩

/-- What is only made into something else afterwards has made all there is. -/
theorem StageM.makes_bind_pure {x : StageM β} {f : β → α} {σ after : Streams} {trace : List Exchange}
    {r : Except Fault α} (h : makes (x >>= fun b => pure (f b)) σ trace r after) :
    ∃ done, makes x σ trace done after ∧ r = done.map f := by
  rcases makes_bind.1 h with ⟨b, middle, first, rest, rfl, hx, hrest⟩ | ⟨fault, rfl, hx⟩
  · obtain ⟨rfl, rfl, rfl⟩ := makes_pure.1 hrest
    exact ⟨.ok b, by rwa [List.append_nil], rfl⟩
  · exact ⟨.error fault, hx, rfl⟩

/-! ## What is given to sinks -/

namespace Exchange

/-- What was to be written, and was refused. -/
def refusesWrite : Exchange → Bool
  | ⟨.write _ _, .error _⟩ => true
  | _ => false

/-- What was given to a sink, whether or not the sink has taken it. -/
def gives : Exchange → List (Sink × Bytes)
  | ⟨.write sink data, _⟩ => if data = [] then [] else [(sink, data)]
  | _ => []

/-- An exchange that leaves a world as it is: something is looked at, or cannot be opened. -/
inductive Looks : Exchange → Prop
  | stat {base : Ino} {path : String} {followLast : Bool} (reply : Except Errno FileKind) :
    Looks ⟨.stat base path followLast, reply⟩
  | refused {base : Ino} {path : String} {mode : Mode} (cause : Errno) : Looks ⟨.openFile base path mode, .error cause⟩

theorem Looks.opening?_eq {e : Exchange} (h : e.Looks) : e.opening? = none := by
  cases h <;> rfl

theorem Looks.gives_eq {e : Exchange} (h : e.Looks) : e.gives = [] := by
  cases h <;> rfl

theorem Looks.refusesWrite_eq {e : Exchange} (h : e.Looks) : e.refusesWrite = false := by
  cases h <;> rfl

end Exchange

theorem World.serves_of_looks {w w' : World} {trace : List Exchange} (h : ∀ e ∈ trace, e.Looks)
    (hserves : w.Serves trace w') : w' = w := by
  induction trace generalizing w with
  | nil => exact hserves
  | cons e trace ih =>
    rw [List.forall_mem_cons] at h
    obtain ⟨hreply, hrest⟩ := hserves
    have hsame : (w.perform e.call).2 = w := by
      cases h.1 with
      | stat reply => rfl
      | @refused base path mode cause =>
        have hrefused : (w.openPath base path mode).1 = .error cause := hreply.symm
        show (w.openPath base path mode).2 = w
        unfold World.openPath at hrefused ⊢
        split
        · rfl
        · rename_i hopen
          rw [hopen] at hrefused
          cases hrefused
    rw [hsame] at hrest
    exact ih h.2 hrest

/-- Nothing that was to be written was refused. -/
def Unrefused (trace : List Exchange) : Prop :=
  ∀ e ∈ trace, e.refusesWrite = false

/-- What was given to sinks in the course of a trace, piece by piece. -/
def given (trace : List Exchange) : List (Sink × Bytes) :=
  trace.flatMap Exchange.gives

/-- All files that were opened in the course of a trace. -/
def everOpened (trace : List Exchange) : List Opening :=
  trace.filterMap Exchange.opening?

section Facts

variable {trace rest : List Exchange}

@[simp] theorem unrefused_nil : Unrefused [] := List.forall_mem_nil _

@[simp] theorem unrefused_append : Unrefused (trace ++ rest) ↔ Unrefused trace ∧ Unrefused rest :=
  List.forall_mem_append

@[simp] theorem given_append : given (trace ++ rest) = given trace ++ given rest := List.flatMap_append

@[simp] theorem everOpened_nil : everOpened [] = [] := rfl

@[simp] theorem everOpened_append : everOpened (trace ++ rest) = everOpened trace ++ everOpened rest :=
  List.filterMap_append

theorem unrefused_of_looks (h : ∀ e ∈ trace, e.Looks) : Unrefused trace := fun e he => (h e he).refusesWrite_eq

theorem given_of_looks (h : ∀ e ∈ trace, e.Looks) : given trace = [] :=
  List.flatMap_eq_nil_iff.2 fun e he => (h e he).gives_eq

theorem everOpened_of_looks (h : ∀ e ∈ trace, e.Looks) : everOpened trace = [] :=
  List.filterMap_eq_nil_iff.2 fun e he => (h e he).opening?_eq

theorem everOpened_of_writes {sink : Sink} (h : ∀ e ∈ trace, e.WritesTo sink) : everOpened trace = [] :=
  List.filterMap_eq_nil_iff.2 fun e he => (h e he).opening?_eq

/-- Closing files opens and tells nothing. -/
theorem closes_silent (handles : List Handle) :
    Unrefused (handles.map fun h => ⟨.close h, ()⟩) ∧ given (handles.map fun h => ⟨.close h, ()⟩) = [] ∧
      everOpened (handles.map fun h => ⟨.close h, ()⟩) = [] := by
  induction handles with
  | nil => exact ⟨unrefused_nil, rfl, rfl⟩
  | cons h rest ih => exact ⟨List.forall_mem_cons.2 ⟨rfl, ih.1⟩, ih.2.1, ih.2.2⟩

end Facts

/-- What was said in the course of a trace, of what was to be said: all of it, or what came before a refusal and is
    ended by that. -/
inductive Says (lines : List (Sink × Bytes)) (trace : List Exchange) : Except Fault α → Prop
  | whole {a : α} (htaken : Unrefused trace) (hgiven : given trace = lines) : Says lines trace (.ok a)
  | refused {fault : Fault} (hrefused : ¬ Unrefused trace) (hgiven : given trace <+: lines) :
    Says lines trace (.error fault)

section Says

variable {lines more : List (Sink × Bytes)} {trace rest : List Exchange} {r : Except Fault α} {r' : Except Fault β}

theorem Says.append {a : β} (h : Says lines trace (.ok a : Except Fault β)) (h' : Says more rest r) :
    Says (lines ++ more) (trace ++ rest) r := by
  cases h with
  | whole htaken hgiven =>
    cases h' with
    | whole htaken' hgiven' => exact .whole (unrefused_append.2 ⟨htaken, htaken'⟩) (by rw [given_append, hgiven, hgiven'])
    | refused hrefused hgiven' =>
      refine .refused (fun hall => hrefused (unrefused_append.1 hall).2) ?_
      rw [given_append, hgiven]
      exact (List.prefix_append_right_inj lines).2 hgiven'

/-- Nothing is said after a refusal. -/
theorem Says.stop {fault : Fault} (h : Says lines trace (.error fault : Except Fault β)) (more : List (Sink × Bytes)) :
    Says (lines ++ more) trace (.error fault : Except Fault α) := by
  cases h with
  | refused hrefused hgiven => exact .refused hrefused (hgiven.trans (List.prefix_append _ _))

theorem Says.of_looks {a : α} (h : ∀ e ∈ trace, e.Looks) : Says [] trace (.ok a : Except Fault α) :=
  .whole (unrefused_of_looks h) (given_of_looks h)

theorem Says.map {f : α → β} (h : Says lines trace r) : Says lines trace (r.map f) := by
  cases h with
  | whole htaken hgiven => exact .whole htaken hgiven
  | refused hrefused hgiven => exact .refused hrefused hgiven

end Says

namespace Streams

variable {σ after : Streams} {sink : Sink} {data : Bytes} {trace : List Exchange} {result : Except Fault Unit}

theorem writeNow_says (h : makes (writeNow sink data) σ trace result after) :
    Says (if data = [] then [] else [(sink, data)]) trace result ∧ after = σ := by
  unfold writeNow at h
  rw [makes_call_bind] at h
  obtain ⟨reply, rest, rfl, h⟩ := h
  have hgiven : given [⟨.write sink data, reply⟩] = if data = [] then [] else [(sink, data)] := List.append_nil _
  cases reply with
  | ok done =>
    obtain ⟨rfl, rfl, rfl⟩ := makes_pure.1 h
    exact ⟨.whole (List.forall_mem_singleton.2 rfl) hgiven, rfl⟩
  | error cause =>
    have hrefused : ¬ Unrefused [⟨.write sink data, .error cause⟩] := fun hall =>
      Bool.noConfusion (hall _ (List.mem_singleton.2 rfl))
    have hends : ∃ fault, makes (throw fault : StageM Unit) σ rest result after := by
      cases cause <;> exact ⟨_, h⟩
    obtain ⟨fault, hthrown⟩ := hends
    obtain ⟨rfl, rfl, rfl⟩ := makes_throw.1 hthrown
    exact ⟨.refused hrefused (hgiven ▸ List.prefix_refl _), rfl⟩

/-- A file that has refused nothing so far is given data in one piece. -/
theorem writeFile_says {h : Handle} (hsettled : σ.unwritten = []) (hdata : data ≠ [])
    (hmakes : makes (writeFile h data) σ trace result after) : Says [(.file h, data)] trace result := by
  have hnothing : ∀ {σ after : Streams} {trace : List Exchange} {result : Except Fault Unit},
      makes (writeNow (.file h) []) σ trace result after → Says [] trace result ∧ after = σ := fun hmakes =>
    writeNow_says hmakes
  have hall : ∀ {σ after : Streams} {trace : List Exchange} {result : Except Fault Unit},
      makes (writeNow (.file h) data) σ trace result after → Says [(.file h, data)] trace result ∧ after = σ := by
    intro σ after trace result hmakes
    have hlines := writeNow_says hmakes
    rwa [if_neg hdata] at hlines
  unfold writeFile at hmakes
  rcases makes_bind.1 hmakes with ⟨_, σ₁, first, rest, rfl, hfirst, hrest⟩ | ⟨fault, rfl, hfirst⟩
  · obtain ⟨hsaid, rfl⟩ := hnothing hfirst
    rw [makes_get_bind] at hrest
    simp only [hsettled, List.lookup_nil, Option.getD_none, List.length_nil, Nat.zero_add, List.nil_append] at hrest
    suffices Says [(.file h, data)] rest result from hsaid.append this
    split at hrest
    · unfold setUnwritten at hrest
      rw [makes_modify_bind] at hrest
      rcases makes_bind.1 hrest with ⟨_, σ₂, second, last, rfl, hsecond, hlast⟩ | ⟨fault, rfl, hsecond⟩
      · obtain ⟨rfl, rfl, rfl⟩ := makes_modify.1 hlast
        rw [List.append_nil]
        exact (hall hsecond).1
      · exact (hall hsecond).1
    · rcases makes_bind.1 hrest with ⟨_, σ₂, second, last, rfl, hsecond, hlast⟩ | ⟨fault, rfl, hsecond⟩
      · unfold setUnwritten at hlast
        rw [makes_modify_bind] at hlast
        exact (hnothing hsecond).1.append (hall hlast).1
      · exact (hnothing hsecond).1.stop [(.file h, data)]
  · exact (hnothing hfirst).1.stop [(.file h, data)]

theorem utf8Line_ne_nil (text : String) : utf8Line text ≠ [] := by
  simp [utf8Line]

/-- Where the line is told that an open file takes, or else the console. -/
def sinkOf (handle : Option Handle) : Sink := handle.elim .err .file

theorem error_eq (text : String) : error text = stderrHandle >>= fun handle => lineTo (sinkOf handle) text :=
  congrArg (stderrHandle >>= ·) (funext fun handle => by cases handle <;> rfl)

/-- A line is told in one piece, to one sink. -/
theorem lineTo_says {handle : Option Handle} {text : String} (hsettled : σ.unwritten = [])
    (h : makes (lineTo (sinkOf handle) text) σ trace result after) :
    Says [(sinkOf handle, utf8Line text)] trace result ∧ ∀ e ∈ trace, e.WritesTo (sinkOf handle) := by
  refine ⟨?_, (onlyWrites_writeTo _ _ _ _ _ _ h).1⟩
  cases handle with
  | some handle => exact writeFile_says hsettled (utf8Line_ne_nil text) h
  | none =>
    have hlines := writeNow_says h
    rw [if_neg (utf8Line_ne_nil text)] at hlines
    exact hlines.1

end Streams

/-! ## Opening -/

/-- What the exchanges are with which a file could not be opened, and why. -/
inductive FailsToOpen (path : String) (mode : Mode) : List Exchange → Fault → Prop
  | nul (hnul : hasNul path = true) : FailsToOpen path mode [] .nul
  | directory (hnul : hasNul path = false) :
    FailsToOpen path mode [⟨.stat root path true, .ok .dir⟩] (.system .isDirectory path)
  | refused {found : Except Errno FileKind} {cause : Errno} (hnul : hasNul path = false) (hfound : found ≠ .ok .dir) :
    FailsToOpen path mode [⟨.stat root path true, found⟩, ⟨.openFile root path mode, .error cause⟩]
      (.system cause path)

theorem FailsToOpen.looks {path : String} {mode : Mode} {trace : List Exchange} {fault : Fault}
    (h : FailsToOpen path mode trace fault) : ∀ e ∈ trace, e.Looks := by
  cases h with
  | nul => exact List.forall_mem_nil _
  | directory => exact List.forall_mem_singleton.2 (.stat _)
  | refused => exact List.forall_mem_cons.2 ⟨.stat _, List.forall_mem_singleton.2 (.refused _)⟩

namespace Streams

variable {σ after : Streams} {name : String} {mode : Mode} {trace : List Exchange}

/-- What opening a file comes to that is not to be continued. -/
inductive Opens (path : String) (mode : Mode) : List Exchange → Except Fault Handle → Prop
  | failed {trace : List Exchange} {fault : Fault} (h : FailsToOpen path mode trace fault) :
    Opens path mode trace (.error fault)
  | opened {found : Except Errno FileKind} (h : Handle) :
    Opens path mode [⟨.stat root path true, found⟩, ⟨.openFile root path mode, .ok h⟩] (.ok h)

theorem openOwned_opens {result : Except Fault Handle} (hmode : mode ≠ .append)
    (h : makes (openOwned name mode) σ trace result after) :
    Opens (σ.pathOf name) mode trace result ∧ after = σ.keeping result := by
  refine ⟨?_, (openOwned_makes h).2⟩
  unfold openOwned at h
  rw [makes_get_bind] at h
  dsimp only at h
  rw [show ((σ.directory.join (Path.ofString name)).normalize).toString = σ.pathOf name from rfl] at h
  generalize σ.pathOf name = path at h ⊢
  split at h
  · rename_i hnul
    obtain ⟨rfl, rfl, rfl⟩ := makes_throw_bind.1 h
    exact .failed (.nul hnul)
  rename_i hnul
  rw [Bool.not_eq_true] at hnul
  rw [makes_call_bind] at h
  obtain ⟨found, _, rfl, h⟩ := h
  split at h
  · rw [makes_throw_bind] at h
    obtain ⟨rfl, rfl, rfl⟩ := h
    exact .failed (.directory hnul)
  rename_i hfound
  rw [makes_call_bind] at h
  obtain ⟨reply, _, rfl, h⟩ := h
  cases reply with
  | error cause =>
    obtain ⟨rfl, rfl, rfl⟩ := makes_throw.1 h
    exact .failed (.refused hnul hfound)
  | ok handle =>
    rw [makes_set_bind, makes_pure] at h
    obtain ⟨rfl, rfl, rfl⟩ := h
    exact .opened handle

/-- Each way in which a file cannot be opened is one that opening it can go. -/
theorem makes_openOwned_of_fails {fault : Fault} (h : FailsToOpen (σ.pathOf name) mode trace fault) :
    makes (openOwned name mode) σ trace (.error fault) σ := by
  unfold openOwned
  rw [makes_get_bind]
  dsimp only
  rw [show ((σ.directory.join (Path.ofString name)).normalize).toString = σ.pathOf name from rfl]
  generalize σ.pathOf name = path at h ⊢
  cases h with
  | nul hnul =>
    rw [if_pos hnul]
    exact makes_throw_bind.2 ⟨rfl, rfl, rfl⟩
  | directory hnul =>
    rw [if_neg (by simp [hnul])]
    exact makes_call_bind.2 ⟨_, _, rfl, makes_throw_bind.2 ⟨rfl, rfl, rfl⟩⟩
  | @refused found cause hnul hfound =>
    rw [if_neg (by simp [hnul])]
    refine makes_call_bind.2 ⟨found, _, rfl, ?_⟩
    split
    · exact absurd rfl hfound
    · exact makes_call_bind.2 ⟨_, _, rfl, makes_throw.2 ⟨rfl, rfl, rfl⟩⟩

/-- The input of a stage cannot be opened in the ways in which its file cannot. -/
theorem makes_stdinHandle_of_fails {fault : Fault} (hwaits : σ.Waits .stdin name)
    (h : FailsToOpen (σ.pathOf name) .read trace fault) : makes stdinHandle σ trace (.error fault) σ := by
  unfold stdinHandle
  simp only [makes_get_bind, show σ.redirects.stdin = some name from hwaits.file, show σ.stdin = none from hwaits.handle]
  exact makes_bind.2 (.inr ⟨fault, rfl, makes_openOwned_of_fails h⟩)

/-! ## The file for diagnostics -/

/-- What comes of asking for the file for diagnostics when no stream was used yet. -/
inductive Asked (base : Streams) : List Exchange → Except Fault (Option Handle) → Streams → Prop
  | inherited (hname : base.redirects.stderr = none) : Asked base [] (.ok none) base
  | opened {name : String} {found : Except Errno FileKind} (h : Handle) (hname : base.redirects.stderr = some name) :
    Asked base [⟨.stat root (base.pathOf name) true, found⟩, ⟨.openFile root (base.pathOf name) .truncate, .ok h⟩]
      (.ok (some h)) (base.owning h .stderr)
  /-- It cannot be opened, and that is told on the console. -/
  | lost {name : String} {attempt told : List Exchange} {fault : Fault} {r : Except Fault Unit}
      (hname : base.redirects.stderr = some name) (hfailed : FailsToOpen (base.pathOf name) .truncate attempt fault)
      (htold : makes (lineTo (sinkOf none) (fault.about name)) { base with stderrFailed := true } told r
        { base with stderrFailed := true }) :
    Asked base (attempt ++ told) (r.map fun _ => none) { base with stderrFailed := true }

variable {base : Streams} {handle : Option Handle}

theorem stderrHandle_asked {result : Except Fault (Option Handle)} (hunused : base.Unused)
    (h : makes stderrHandle base trace result after) : Asked base trace result after := by
  have hnone : base.stderr = none := hunused.handles .stderr
  unfold stderrHandle at h
  rw [makes_get_bind] at h
  split at h
  · obtain ⟨rfl, rfl, rfl⟩ := makes_pure.1 h
    exact .inherited ‹_›
  rename_i name hname
  rw [hunused.sound, if_neg Bool.false_ne_true] at h
  simp only [hnone] at h
  obtain ⟨r, middle, first, rest, rfl, hopen, h⟩ := makes_attempt_bind.1 h
  obtain ⟨hopens, rfl⟩ := openOwned_opens (by decide) hopen
  cases hopens with
  | opened handle =>
    simp only [makes_modify_bind, makes_pure] at h
    obtain ⟨rfl, rfl, rfl⟩ := h
    exact .opened handle hname
  | @failed _ fault hfails =>
    simp only [makes_modify_bind] at h
    rcases makes_bind.1 h with ⟨done, last, told, rest, rfl, htold, h⟩ | ⟨fault', rfl, htold⟩
    · obtain ⟨rfl, rfl, rfl⟩ := makes_pure.1 h
      obtain ⟨-, rfl⟩ := writeNow_says htold
      rw [List.append_nil]
      exact .lost hname hfails htold
    · obtain ⟨-, rfl⟩ := writeNow_says htold
      exact .lost hname hfails htold

/-- Asking once more gives the same. -/
theorem Asked.again {errs : List Exchange} {result : Except Fault (Option Handle)} {last : Streams}
    (hunused : base.Unused) (hasked : Asked base errs (.ok handle) σ) (h : makes stderrHandle σ trace result last) :
    trace = [] ∧ result = .ok handle ∧ last = σ := by
  unfold stderrHandle at h
  rw [makes_get_bind] at h
  generalize hr : (Except.ok handle : Except Fault (Option Handle)) = r at hasked
  cases hasked with
  | inherited hname =>
    cases hr
    simp only [hname] at h
    exact makes_pure.1 h
  | @opened name _ g hname =>
    cases hr
    have hname' : (base.owning g .stderr).redirects.stderr = some name := hname
    have hopen : (base.owning g .stderr).stderr = some g := rfl
    simp only [hname', hopen, stderrFailed_owning, hunused.sound, Bool.false_eq_true, if_false] at h
    exact makes_pure.1 h
  | @lost _ _ _ _ r hname hfailed htold =>
    cases r with
    | error fault => cases hr
    | ok done =>
      cases hr
      simp only [hname, if_true] at h
      exact makes_pure.1 h

end Streams

end Conch
