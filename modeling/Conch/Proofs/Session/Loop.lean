-- SUMMARY: The loop answers every event once, in order, until a line asks for the end.
import Mathlib.Data.List.DropRight
import Conch.Proofs.Interpreter.Boundary
import Conch.Proofs.Interpreter.Console
import Conch.Repl

/-!
# The loop

A loop is told by its answers: which events it took, and for each of them the line
that was run, if there was one. Lines are run one after the other, each on the
context that the one before has left, until one asks for the end. Interrupts and
blank lines come in between and change nothing. What goes to the console is a
prompt for each answer and what was said in answering.

What a line comes to does not depend on what is on the console already, so an
execution is described in a world whose console is still empty.
-/

namespace Conch

/-! ## Blanks at the ends -/

theorem trimBlanks_trimBlanks (cs : List Char) : trimBlanks (trimBlanks cs) = trimBlanks cs := by
  have hbegins : trimBlanks cs <+: cs.dropWhile isBlank := List.rdropWhile_prefix _ _
  have hstart : (trimBlanks cs).dropWhile isBlank = trimBlanks cs := by
    rw [List.dropWhile_eq_self_iff]
    intro hpos
    rw [hbegins.getElem hpos]
    exact List.dropWhile_get_zero_not _ _ (hpos.trans_le hbegins.length_le)
  calc trimBlanks (trimBlanks cs) = ((trimBlanks cs).dropWhile isBlank).rdropWhile isBlank := rfl
    _ = (trimBlanks cs).rdropWhile isBlank := by rw [hstart]
    _ = trimBlanks cs := List.rdropWhile_idempotent _ _

theorem trim_trim (line : String) : trim (trim line) = trim line := by
  simp only [trim, String.toList_ofList, trimBlanks_trimBlanks]

/-- The line that an event asks to run. An interrupt and a blank line ask for none. -/
def Event.command? : Event → Option String
  | .interrupt => none
  | .line text => if trim text = "" then none else some (trim text)

namespace Repl

open World
open Interpreter (crampedWorld)

variable {programs : Programs} {debug : Bool} {ctx : Context} {w : World} {out err : Bytes}

/-! ## One line -/

/-- A line that was run, with what it came to and what it has left. -/
structure Execution where
  line : String
  outcome : Outcome
  context : Context
  /-- The world after it. On its console stands what was said since the line was begun. -/
  world : World

namespace Execution

/-- Run a line in a context and a world. -/
def of (programs : Programs) (debug : Bool) (ctx : Context) (w : World) (line : String) : Execution :=
  let ran := Interpreter.runLine programs ctx line (if debug then showTree line w.quiet else w.quiet)
  ⟨line, ran.1.1, ran.1.2, ran.2⟩

/-- Nothing of it depends on what is on the console before. -/
theorem of_congr {w' : World} (hquiet : w.quiet = w'.quiet) (line : String) :
    of programs debug ctx w line = of programs debug ctx w' line := by
  simp only [of, hquiet]

/-- The status that a line counts as, or the code that it asks for the end with. A fault counts as
    a failure. -/
def code (e : Execution) : Nat :=
  match e.outcome with
  | .status code | .exit code => code
  | .failed _ => 1

/-- Whether a line asks for the end. A fault does not. -/
def exits (e : Execution) : Bool :=
  match e.outcome with
  | .exit _ => true
  | .status _ | .failed _ => false

/-- What is told about a line that was run: its own diagnostics, and the fault that came out of it. -/
def told (e : Execution) : Bytes :=
  match e.outcome with
  | .failed fault => e.world.err ++ utf8Line s!"[execution error] {fault.message}"
  | .status _ | .exit _ => e.world.err

/-- How the loop goes on after a line. -/
def lineEnd (e : Execution) : LineEnd :=
  if e.exits then .exit e.code else .status e.code

end Execution

theorem showTree_behind (line : String) :
    showTree line (w.behind out err) = (showTree line w).behind out err := by
  unfold showTree
  cases parseTrimmed line with
  | error e => rfl
  | ok c => simp [Interpreter.complain, behind]

/-- Running a line is an execution of it, whose output comes behind what is on the console. -/
theorem runLine_eq (line : String) :
    runLine programs debug ctx line w =
      let e := Execution.of programs debug ctx w line
      ((e.lineEnd, e.context), { e.world with out := w.out ++ e.world.out, err := w.err ++ e.told }) := by
  have hshown : (if debug then showTree line w else w) =
      (if debug then showTree line w.quiet else w.quiet).behind w.out w.err := by
    conv_lhs => rw [← w.quiet_behind]
    cases debug with
    | false => rfl
    | true => simp only [if_true, showTree_behind]
  simp only [runLine, hshown, Interpreter.runLine_behind, Execution.of]
  -- What the line comes to is of no matter here, and too much to look into.
  generalize Interpreter.runLine programs ctx line _ = ran
  obtain ⟨⟨outcome, after⟩, w'⟩ := ran
  cases outcome with
  | status code => rfl
  | exit code => rfl
  | failed fault =>
    simp [answerBehind, Execution.lineEnd, Execution.exits, Execution.code, Execution.told, complain,
      Interpreter.complain, behind, Builtin.failure]

/-! ## Answers -/

/-- An event that was answered, with the line that was run for it, if one was. -/
structure Answer where
  event : Event
  execution : Option Execution := none

namespace Answer

/-- Whether the loop ends with this answer. -/
def exits (a : Answer) : Bool := a.execution.any Execution.exits

/-- What goes to the console for an event: the prompt, then the output of the line that was run. An
    interrupt ends the line that the prompt stands on. -/
def shown (a : Answer) : Bytes :=
  utf8 prompt ++
    match a.execution, a.event with
    | some e, _ => e.world.out
    | none, .interrupt => utf8 "\n"
    | none, .line _ => []

/-- The diagnostics in answering. -/
def told (a : Answer) : Bytes :=
  match a.execution with
  | some e => e.told
  | none => []

end Answer

/-- Executions one after the other, each of them on the context and in the world that the one before
    has left. -/
def Successive (programs : Programs) (debug : Bool) : Context → World → List Execution → Prop
  | _, _, [] => True
  | ctx, w, e :: rest =>
    e = .of programs debug ctx w e.line ∧ Successive programs debug e.context e.world rest

/-- The lines that were run among some answers. -/
def executions (answers : List Answer) : List Execution :=
  answers.filterMap Answer.execution

/-- What the last line of all has left is what the last of the others has, or the first when it is alone. -/
theorem last_of_run {α : Type} (f : Execution → α) (event : Event) (e : Execution) (answers : List Answer) (a : α) :
    ((executions (⟨event, some e⟩ :: answers)).getLast?.map f).getD a =
      ((executions answers).getLast?.map f).getD (f e) := by
  change ((e :: executions answers).getLast?.map f).getD a = _
  rw [List.getLast?_cons]
  exact (Option.getD_map f e _).symm

/-- The answers that a loop gives to events when it is begun in a state, and what it ends with. -/
structure Answers (programs : Programs) (debug : Bool) (s : State) (events : List Event)
    (answers : List Answer) (code : Nat) (w : World) : Prop where
  /-- Events are answered in order and each of them once. -/
  inOrder : answers.map Answer.event <+: events
  /-- All of them are, unless a line asks for the end. -/
  all : answers.any Answer.exits = false → answers.map Answer.event = events
  /-- No event is answered after such a line. -/
  stops : ∀ a ∈ answers.dropLast, a.exits = false
  /-- What is run is the line of an event that has one. -/
  lines : ∀ a ∈ answers, a.execution.map Execution.line = a.event.command?
  /-- Each line is run on what the one before has left. -/
  successive : Successive programs debug s.context s.world (executions answers)
  /-- The code is that of the last line that was run. -/
  code_eq : code = ((executions answers).getLast?.map Execution.code).getD s.status
  /-- The world is the one that this line has left. -/
  world : w.quiet = ((executions answers).getLast?.map fun e => e.world.quiet).getD s.world.quiet
  /-- A prompt is shown for each answer, and one more at the end of the events. -/
  out : w.out = s.world.out ++ answers.flatMap Answer.shown ++
    if answers.any Answer.exits then [] else utf8 prompt ++ utf8 "\n"
  /-- What is told in answering is told in the same order. -/
  err : w.err = s.world.err ++ answers.flatMap Answer.told

variable {s : State} {event : Event} {rest : List Event} {answers : List Answer} {code : Nat}

/-! ## One answer -/

/-- The answer to an event in a state. -/
def Answer.of (programs : Programs) (debug : Bool) (s : State) (event : Event) : Answer :=
  ⟨event, event.command?.map (Execution.of programs debug s.context s.world)⟩

/-- The state after an answer. -/
def State.after (s : State) (a : Answer) : State :=
  match a.execution with
  | none => { s with world := { s.world with out := s.world.out ++ a.shown } }
  | some e => ⟨e.context, e.code,
      { e.world with out := s.world.out ++ a.shown, err := s.world.err ++ a.told }⟩

/-- An answer is the right one in a state if it runs the line of its event, when there is one, on what
    the state has. -/
structure Answer.Fits (programs : Programs) (debug : Bool) (s : State) (a : Answer) : Prop where
  line : a.execution.map Execution.line = a.event.command?
  run : ∀ e ∈ a.execution, e = .of programs debug s.context s.world e.line

theorem Answer.of_fits : (Answer.of programs debug s event).Fits programs debug s where
  line := by
    simp only [of, Option.map_map]
    cases event.command? <;> rfl
  run e he := by
    obtain ⟨line, -, rfl⟩ := Option.map_eq_some_iff.1 he
    rfl

theorem Answer.of_idle (h : event.command? = none) : Answer.of programs debug s event = ⟨event, none⟩ := by
  simp [of, h]

theorem Answer.of_command {line : String} (h : event.command? = some line) :
    Answer.of programs debug s event = ⟨event, some (.of programs debug s.context s.world line)⟩ := by
  simp [of, h]

theorem State.after_out (a : Answer) : (s.after a).world.out = s.world.out ++ a.shown := by
  unfold after
  split <;> rfl

theorem State.after_err (a : Answer) : (s.after a).world.err = s.world.err ++ a.told := by
  unfold after Answer.told
  cases a.execution with
  | none => exact (List.append_nil _).symm
  | some e => rfl

/-- What one turn of the loop does. -/
theorem State.respond_eq : s.ask.respond programs debug event =
    let a := Answer.of programs debug s event
    if a.exits then .leave (s.after a).status (s.after a).world else .next (s.after a) := by
  cases hcommand : event.command? with
  | none =>
    rw [Answer.of_idle hcommand]
    cases event with
    | interrupt => simp [respond, ask, endLine, print, after, Answer.exits, Answer.shown]
    | line text =>
      have hblank : trim text = "" := by simpa [Event.command?] using hcommand
      simp [respond, hblank, ask, print, after, Answer.exits, Answer.shown]
  | some line =>
    cases event with
    | interrupt => cases hcommand
    | line text =>
      obtain ⟨hline, rfl⟩ : ¬trim text = "" ∧ trim text = line := by simpa [Event.command?] using hcommand
      have hcontext : s.ask.context = s.context := rfl
      have hquiet : s.ask.world.quiet = s.world.quiet := rfl
      simp only [respond, hline, if_false, runLine_eq, hcontext, Execution.of_congr hquiet, Answer.of, hcommand,
        Option.map_some]
      generalize Execution.of programs debug s.context s.world (trim text) = e
      cases hexits : e.exits <;>
        simp [Execution.lineEnd, hexits, after, Answer.exits, Answer.shown, Answer.told, ask, print]

theorem loop_cons : loop programs debug s (event :: rest) =
    let a := Answer.of programs debug s event
    if a.exits then ((s.after a).status, (s.after a).world) else loop programs debug (s.after a) rest := by
  rw [loop, State.respond_eq]
  dsimp only
  cases (Answer.of programs debug s event).exits <;> rfl

theorem Successive.congr {w' : World} (hquiet : w.quiet = w'.quiet) {ran : List Execution}
    (h : Successive programs debug ctx w ran) : Successive programs debug ctx w' ran := by
  cases ran with
  | nil => trivial
  | cons e rest =>
    exact ⟨h.1.trans (Execution.of_congr hquiet e.line), h.2⟩

/-! ## All answers -/

namespace Answers

theorem nil : Answers programs debug s [] [] s.status s.ask.endLine.world where
  inOrder := List.prefix_rfl
  all _ := rfl
  stops := by simp
  lines := by simp
  successive := trivial
  code_eq := rfl
  world := rfl
  out := by simp [State.ask, State.endLine, print]
  err := by simp [State.ask, State.endLine, print]

theorem last {a : Answer} (ha : a.Fits programs debug s) (hexits : a.exits = true) :
    Answers programs debug s (a.event :: rest) [a] (s.after a).status (s.after a).world := by
  obtain ⟨event, none | e⟩ := a
  · cases hexits
  · exact {
      inOrder := ⟨rest, rfl⟩
      all := fun hnone => by simp [hexits] at hnone
      stops := by simp
      lines := by simpa using ha.line
      successive := ⟨ha.run e rfl, trivial⟩
      code_eq := rfl
      world := rfl
      out := by simp [State.after_out, hexits]
      err := by simp [State.after_err] }

theorem cons {a : Answer} (ha : a.Fits programs debug s) (hexits : a.exits = false)
    (h : Answers programs debug (s.after a) rest answers code w) :
    Answers programs debug s (a.event :: rest) (a :: answers) code w where
  inOrder := List.cons_prefix_cons.2 ⟨rfl, h.inOrder⟩
  all hnone := by
    rw [List.any_cons, hexits, Bool.false_or] at hnone
    exact congrArg (a.event :: ·) (h.all hnone)
  stops b hb := by
    cases answers with
    | nil => cases hb
    | cons c answers =>
      rcases List.mem_cons.1 hb with rfl | hb
      · exact hexits
      · exact h.stops b hb
  lines := List.forall_mem_cons.2 ⟨ha.line, h.lines⟩
  successive := by
    obtain ⟨event, none | e⟩ := a
    · have hquiet : (s.after ⟨event, none⟩).world.quiet = s.world.quiet := rfl
      exact h.successive.congr hquiet
    · have hquiet : (s.after ⟨event, some e⟩).world.quiet = e.world.quiet := rfl
      exact ⟨ha.run e rfl, h.successive.congr hquiet⟩
  code_eq := by
    obtain ⟨event, none | e⟩ := a
    · exact h.code_eq
    · exact h.code_eq.trans (last_of_run Execution.code event e answers s.status).symm
  world := by
    obtain ⟨event, none | e⟩ := a
    · exact h.world
    · exact h.world.trans (last_of_run (fun e => e.world.quiet) event e answers s.world.quiet).symm
  out := by simp [h.out, State.after_out, hexits]
  err := by simp [h.err, State.after_err]

end Answers

/-- The loop answers events one by one: by induction on them, with one turn of the loop for each. -/
theorem loop_answers (programs : Programs) (debug : Bool) (s : State) (events : List Event) :
    ∃ answers, Answers programs debug s events answers (loop programs debug s events).1
      (loop programs debug s events).2 := by
  induction events generalizing s with
  | nil => exact ⟨[], .nil⟩
  | cons event rest ih =>
    rw [loop_cons]
    dsimp only
    cases hexits : (Answer.of programs debug s event).exits with
    | true => exact ⟨_, .last Answer.of_fits hexits⟩
    | false =>
      obtain ⟨answers, h⟩ := ih (s.after (Answer.of programs debug s event))
      exact ⟨_, .cons Answer.of_fits hexits h⟩

/-! ## The program -/

/-- The blanks at the ends of a line make no difference to its execution. -/
theorem Execution.of_trim (line : String) :
    of programs debug ctx w (trim line) = { of programs debug ctx w line with line := trim line } := by
  simp only [of, Interpreter.runLine, showTree, parseTrimmed, trim_trim]

theorem loop_single {line : String} (hline : trim line ≠ "") :
    (loop programs debug s [.line line]).1 = (Execution.of programs debug s.context s.world line).code := by
  have hcommand : (Event.line line).command? = some (trim line) := if_neg hline
  rw [loop_cons, Answer.of_command hcommand, Execution.of_trim]
  generalize Execution.of programs debug s.context s.world line = e
  dsimp only
  split <;> rfl

/-- Started without a line, the program answers the events until a line asks for the end. Started with
    a line, it ends with what the line would give as the only one. -/
theorem run_answers_events (programs : Programs) (words : List String) (o : Options) (w : World)
    (hwords : Options.parse words = .run o) :
    (∀ events ctx w₀, o.command = none → (Context.create { directory := o.directory }).run w = (.ok ctx, w₀) →
      ∃ answers code w', run programs words events w = (.status code, w') ∧
        Answers programs o.debug { context := ctx, world := w₀ } events answers code w') ∧
    ∀ line events, o.command = some (.text line) → trim line ≠ "" →
      (run programs words events w).1 = (runWith programs { o with command := none } [.line line] w).1 := by
  constructor
  · intro events ctx w₀ hcommand hcreate
    obtain ⟨answers, hanswers⟩ := loop_answers programs o.debug { context := ctx, world := w₀ } events
    refine ⟨answers, _, _, ?_, hanswers⟩
    simp only [run, hwords, runWith, hcreate, hcommand]
  · intro line events hcommand hline
    simp only [run, hwords, runWith, hcommand]
    generalize (Context.create { directory := o.directory }).run w = created
    obtain ⟨e | ctx, w₀⟩ := created
    · rfl
    · simp only [runLine_eq, loop_single hline]
      generalize Execution.of programs o.debug ctx w₀ line = e
      cases hexits : e.exits <;> simp [Execution.lineEnd, hexits]

/-- What happens at a prompt: a fault, an interrupt and a blank line on the way to the end. -/
def eventfulEvents : List Event :=
  [.line " nosuch 2> /dev/full ", .interrupt, .line "cd dev", .line " ", .line "exit 263", .line "echo"]

/-- A session at the root with the usual search path. -/
def usualContext : Context := ⟨.rootPath, .rootPath, ["/bin", "/usr/bin"]⟩

theorem run_answers_events_after_fault :
    (∃ answers w', run (fun _ => none) [] eventfulEvents crampedWorld = (.status 7, w') ∧
      Answers (fun _ => none) false { context := usualContext, world := crampedWorld } eventfulEvents answers 7 w') ∧
    (run (fun _ => none) ["-c", " exit 263 "] [.interrupt] crampedWorld).1 =
      (runWith (fun _ => none) {} [.line " exit 263 "] crampedWorld).1 := by
  constructor
  · have hcreate : (Context.create {}).run crampedWorld = (.ok usualContext, crampedWorld) := by rfl
    obtain ⟨answers, code, w', hrun, hanswers⟩ :=
      (run_answers_events (fun _ => none) [] {} crampedWorld rfl).1 eventfulEvents _ _ rfl hcreate
    have hcode : (run (fun _ => none) [] eventfulEvents crampedWorld).1 = .status 7 := by decide +kernel
    obtain rfl : code = 7 := by
      rw [hrun] at hcode
      exact ProgramEnd.status.inj hcode
    exact ⟨answers, w', hrun, hanswers⟩
  · exact (run_answers_events (fun _ => none) ["-c", " exit 263 "] { command := some (.text " exit 263 ") }
      crampedWorld (by decide +kernel)).2 " exit 263 " [.interrupt] rfl (by decide +kernel)

example : (run (fun _ => none) [] [.interrupt, .line " "] crampedWorld).2.out = utf8 "$ \n$ $ \n" := by
  decide +kernel

end Repl

end Conch
