-- SUMMARY: Debugging shows the tree of each line before it is run, and changes nothing else.
import Conch.Proofs.Session.Loop
import Conch.Proofs.Session.Turns

/-!
# Debugging

A session that debugs and one that does not give the same answers to the same events: the
same lines are run, on the same contexts and files, and they come to the same. On the console
for diagnostics the first has, in front of what is said of a line, the tree of that line's
command. A line that is no command has no tree.

What the tree adds stands on the console before the line is begun, and no line depends on what
stands there. So the two sessions are followed side by side, one answer at a time.
-/

namespace Conch

/-! ## The request to debug -/

/-- What a command line comes to when debugging is asked for as well. -/
def CommandLine.debugging : CommandLine → CommandLine
  | .run o => .run { o with debug := true }
  | .help => .help
  | .wrong message => .wrong message

namespace Options

theorem take_debugging (o : Options) (flag : Flag) (value : String) :
    take { o with debug := true } flag value = { o.take flag value with debug := true } := by
  cases flag <;> rfl

theorem takeGlued_debugging (o : Options) (flag : Flag) (value : List Char) :
    takeGlued { o with debug := true } flag value = { o.takeGlued flag value with debug := true } := by
  unfold takeGlued
  split
  · cases flag <;> rfl
  · exact take_debugging o flag _

/-- An option without a value reads no other word. -/
theorem read_flag {flag : Flag} (hflag : ¬flag.takesValue) (o : Options) (extras : List String) (word : String)
    (isLong : Bool) (rest : List (String × Word)) :
    read o extras ((word, .option isLong flag none) :: rest) =
      if flag = .help then .help else read (o.take flag "") extras rest := by
  rw [read.eq_def]
  simp only [if_neg hflag]

/-- The flag can be set before the words are read as well as after: no word is read in another way for it. -/
theorem read_debugging (o : Options) (extras : List String) (kinds : List (String × Word)) :
    read { o with debug := true } extras kinds = (read o extras kinds).debugging := by
  fun_induction read o extras kinds with
  | case9 o extras word isLong rest hflag => rw [read_flag hflag, if_pos rfl]; rfl
  | case10 o extras word isLong flag rest hflag hhelp ih =>
    rw [read_flag hflag, if_neg hhelp, take_debugging, ih]
  | _ => simp_all [read, take_debugging, takeGlued_debugging, CommandLine.debugging]

/-- To ask for debugging first changes nothing but that. -/
theorem parse_debug_cons (words : List String) : parse ("--debug" :: words) = (parse words).debugging := by
  have hkind : classify "--debug" = .ok (.option true .debug none) := by decide +kernel
  have hkinds : classifyAll ("--debug" :: words) =
      (classifyAll words).map (("--debug", .option true .debug none) :: ·) := by
    rw [classifyAll, hkind]
    · cases classifyAll words <;> rfl
    · decide
  rw [parse, hkinds, parse]
  cases classifyAll words with
  | error e => rfl
  | ok kinds =>
    change read {} [] (("--debug", .option true .debug none) :: kinds) = (read {} [] kinds).debugging
    rw [read_flag (by decide), ← read_debugging]
    rfl

end Options

/-! ## Anything said before -/

namespace Network

variable {programs : Programs} {ctx : Context} {p : Pipeline} {w : World} {net : Network} {out err : Bytes}

/-- In a world on whose console something was said before, a pipeline can get just as far as it can without. -/
theorem reachable_behind_iff : net.Reachable programs ctx p (w.behind out err) ↔
    ∃ before : Network, net = before.behind out err ∧ before.Reachable programs ctx p w := by
  constructor
  · intro h
    induction h with
    | ofPipeline => exact ⟨.ofPipeline p w, rfl, .ofPipeline⟩
    | step move hnet hstep ih =>
      obtain ⟨before, rfl, hbefore⟩ := ih
      rw [step_behind] at hstep
      obtain ⟨next, hnext, rfl⟩ := Option.map_eq_some_iff.1 hstep
      exact ⟨next, rfl, .step move hbefore hnext⟩
  · rintro ⟨before, rfl, hbefore⟩
    induction hbefore with
    | ofPipeline => exact .ofPipeline
    | step move hnet hstep ih => exact .step move ih (by rw [step_behind, hstep]; rfl)

end Network

namespace Interpreter

variable {programs : Programs} {ctx after : Context} {w w' : World} {out err : Bytes} {outcome : Outcome}

theorem executes_behind_iff {c : Command} : Executes programs ctx (w.behind out err) c outcome after w' ↔
    ∃ before : World, w' = before.behind out err ∧ Executes programs ctx w c outcome after before := by
  constructor
  · intro h
    cases h with
    | stage s =>
      rw [Job.run_behind]
      exact ⟨_, rfl, .stage s⟩
    | pipeline hnet =>
      obtain ⟨net, rfl, hbefore⟩ := Network.reachable_behind_iff.1 hnet
      exact ⟨_, World.closeAll_behind _ _, .pipeline hbefore⟩
  · rintro ⟨before, rfl, h⟩
    cases h with
    | stage s =>
      have hstage := @Executes.stage programs ctx (w.behind out err) s
      rw [Job.run_behind] at hstage
      exact hstage
    | @pipeline p net hnet =>
      have hbehind : (net.behind out err).Reachable programs ctx p (w.behind out err) :=
        Network.reachable_behind_iff.2 ⟨net, rfl, hnet⟩
      rw [← World.closeAll_behind]
      exact .pipeline hbehind

theorem runsLine_behind_iff {line : String} : RunsLine programs ctx (w.behind out err) line outcome after w' ↔
    ∃ before : World, w' = before.behind out err ∧ RunsLine programs ctx w line outcome after before := by
  constructor
  · intro h
    cases h with
    | unreadable h => exact ⟨_, by simp [complain, World.behind], .unreadable h⟩
    | command h hruns =>
      obtain ⟨before, rfl, hbefore⟩ := executes_behind_iff.1 hruns
      exact ⟨before, rfl, .command h hbefore⟩
  · rintro ⟨before, rfl, h⟩
    cases h with
    | @unreadable e h =>
      have hcomplain : (complain s!"{programName}: {e.message}" w).behind out err =
          complain s!"{programName}: {e.message}" (w.behind out err) := by
        simp [complain, World.behind]
      rw [hcomplain]
      exact .unreadable h
    | command h hruns => exact .command h (executes_behind_iff.2 ⟨before, rfl, hruns⟩)

end Interpreter

/-! ## One line -/

/-- What is shown of a line before it is run: its command as a tree, if it is a command. -/
def treeText (line : String) : Bytes :=
  match parseTrimmed line with
  | .ok c => utf8Line c.tree
  | .error _ => []

namespace Repl

open World

variable {programs : Programs} {ctx : Context} {w : World} {s : State}

theorem showTree_eq (line : String) (w : World) : showTree line w = { w with err := w.err ++ treeText line } := by
  unfold showTree treeText
  cases parseTrimmed line with
  | error e => exact (congrArg (fun err => { w with err }) (List.append_nil w.err)).symm
  | ok c => rfl

theorem showTree_quiet (line : String) : showTree line w.quiet = w.quiet.behind [] (treeText line) := by
  simp [showTree_eq, quiet, behind]

/-- In whatever order the stages of a pipeline are at work, a line that is debugged can come to just what it can
    come to otherwise, with its tree in front of what is said. -/
theorem runsLine_showTree_iff {line : String} {outcome : Outcome} {after : Context} {w' : World} :
    Interpreter.RunsLine programs ctx (showTree line w) line outcome after w' ↔
      ∃ (plain : World) (said : Bytes), Interpreter.RunsLine programs ctx w line outcome after plain ∧
        plain.err = w.err ++ said ∧ w' = { plain with err := w.err ++ treeText line ++ said } := by
  have hshown : showTree line w = w.quiet.behind w.out (w.err ++ treeText line) := by
    simp [showTree_eq, quiet, behind]
  have hruns : ∀ plain, Interpreter.RunsLine programs ctx w line outcome after plain ↔
      ∃ before : World, plain = before.behind w.out w.err ∧
        Interpreter.RunsLine programs ctx w.quiet line outcome after before := by
    intro plain
    conv_lhs => rw [← w.quiet_behind]
    exact Interpreter.runsLine_behind_iff
  rw [hshown, Interpreter.runsLine_behind_iff]
  constructor
  · rintro ⟨before, rfl, h⟩
    exact ⟨_, before.err, (hruns _).2 ⟨before, rfl, h⟩, rfl, rfl⟩
  · rintro ⟨plain, said, h, hsaid, rfl⟩
    obtain ⟨before, rfl, hbefore⟩ := (hruns _).1 h
    obtain rfl : before.err = said := List.append_cancel_left hsaid
    exact ⟨before, rfl, hbefore⟩

-- From here on a tree is a text like any other, and no proof looks into how a line is read.
attribute [irreducible] treeText

/-- An execution with the tree of its line in front of its diagnostics. What the line came to, the context and
    everything else that it has left are the same. -/
def Execution.drawn (e : Execution) : Execution :=
  { e with world := e.world.behind [] (treeText e.line) }

/-- To debug a line is to run it as it is, behind its tree. -/
theorem Execution.of_drawn (line : String) : of programs true ctx w line = (of programs false ctx w line).drawn := by
  simp only [of, if_true, Bool.false_eq_true, if_false, showTree_quiet, Interpreter.runLine_behind]
  -- What the line comes to is of no matter here, and too much to look into.
  generalize Interpreter.runLine programs ctx line w.quiet = ran
  rfl

@[simp] theorem Execution.drawn_context (e : Execution) : e.drawn.context = e.context := rfl
@[simp] theorem Execution.drawn_code (e : Execution) : e.drawn.code = e.code := rfl

theorem Execution.drawn_told (e : Execution) : e.drawn.told = treeText e.line ++ e.told := by
  obtain ⟨line, outcome, after, world⟩ := e
  cases outcome with
  | failed fault => exact List.append_assoc _ _ _
  | _ => rfl

/-! ## One answer -/

namespace Answer

/-- The tree that is shown in answering when debugging is on. -/
def tree (a : Answer) : Bytes :=
  match a.execution with
  | some e => treeText e.line
  | none => []

/-- An answer with the tree of the line that was run in front of its diagnostics. -/
def drawn (a : Answer) : Answer :=
  { a with execution := a.execution.map Execution.drawn }

variable (a : Answer)

theorem drawn_exits : a.drawn.exits = a.exits := by
  obtain ⟨event, none | e⟩ := a <;> rfl

theorem drawn_shown : a.drawn.shown = a.shown := by
  obtain ⟨event, none | e⟩ := a <;> rfl

theorem drawn_told : a.drawn.told = a.tree ++ a.told := by
  obtain ⟨event, none | e⟩ := a
  · rfl
  · exact e.drawn_told

theorem of_drawn (event : Event) : Answer.of programs true s event = (Answer.of programs false s event).drawn := by
  cases hcommand : event.command? with
  | none => rw [of_idle hcommand, of_idle hcommand]; rfl
  | some line => rw [of_command hcommand, of_command hcommand, Execution.of_drawn]; rfl

end Answer

/-! ## All answers -/

/-- A state with other diagnostics on the console. -/
def State.withErr (s : State) (err : Bytes) : State :=
  { s with world := { s.world with err } }

theorem Answer.of_withErr (debug : Bool) (err : Bytes) (event : Event) :
    Answer.of programs debug (s.withErr err) event = Answer.of programs debug s event := by
  have hquiet : (s.withErr err).world.quiet = s.world.quiet := rfl
  have hexecution : Execution.of programs debug (s.withErr err).context (s.withErr err).world =
      Execution.of programs debug s.context s.world := funext (Execution.of_congr hquiet)
  rw [Answer.of, Answer.of, hexecution]

/-- A turn that debugs leads to the same state, but for what is on the console for diagnostics. -/
theorem State.withErr_after (s : State) (err : Bytes) (a : Answer) :
    (s.withErr err).after a.drawn = (s.after a).withErr (err ++ (a.tree ++ a.told)) := by
  simp only [after, withErr, Answer.drawn_shown, Answer.drawn_told]
  obtain ⟨event, none | e⟩ := a
  · simp [Answer.drawn, Answer.tree, Answer.told]
  · rw [Answer.drawn, Option.map_some]
    simp only [Execution.drawn_context, Execution.drawn_code]
    simp [Execution.drawn, behind]

/-- The loop that debugs, beside the loop that does not: by induction on the events, with one turn of each. -/
theorem loop_debug (programs : Programs) (s : State) (err : Bytes) (events : List Event) :
    ∃ answers,
      Answers programs false s events answers (loop programs false s events).1 (loop programs false s events).2 ∧
      Answers programs true (s.withErr err) events (answers.map Answer.drawn)
        (loop programs true (s.withErr err) events).1 (loop programs true (s.withErr err) events).2 ∧
      loop programs true (s.withErr err) events = ((loop programs false s events).1,
        { (loop programs false s events).2 with err := err ++ answers.flatMap fun a => a.tree ++ a.told }) := by
  induction events generalizing s err with
  | nil =>
    refine ⟨[], .nil, .nil, ?_⟩
    exact congrArg (fun err => (s.status, { s.ask.endLine.world with err })) (List.append_nil err).symm
  | cons event rest ih =>
    rw [loop_cons, loop_cons, Answer.of_withErr, Answer.of_drawn]
    have hfits : (Answer.of programs false s event).Fits programs false s := Answer.of_fits
    have hfits' : (Answer.of programs false s event).drawn.Fits programs true (s.withErr err) := by
      rw [← Answer.of_drawn, ← Answer.of_withErr true err]
      exact Answer.of_fits
    have hevent : (Answer.of programs false s event).event = event := rfl
    generalize Answer.of programs false s event = a at hfits hfits' hevent ⊢
    subst hevent
    have hexits' : a.drawn.exits = a.exits := Answer.drawn_exits a
    have hafter := State.withErr_after s err a
    dsimp only
    rw [hexits']
    cases hexits : a.exits with
    | true =>
      simp only [if_true]
      refine ⟨[a], .last hfits hexits, .last hfits' (hexits'.trans hexits), ?_⟩
      rw [hafter]
      simp [State.withErr]
    | false =>
      simp only [Bool.false_eq_true, if_false, hafter]
      obtain ⟨answers, hplain, hdebug, hloop⟩ := ih (s.after a) (err ++ (a.tree ++ a.told))
      refine ⟨a :: answers, .cons hfits hexits hplain, .cons hfits' (hexits'.trans hexits) ?_, ?_⟩
      · rw [hafter]
        exact hdebug
      · simpa using hloop

/-! ## The program -/

section Program

variable {words : List String} {o : Options} {events : List Event} {w₀ : World}

theorem run_events (hwords : Options.parse words = .run o) (hcommand : o.command = none)
    (hcreate : (Context.create { directory := o.directory }).run w = (.ok ctx, w₀)) :
    run programs words events w = (.status (loop programs o.debug ⟨ctx, 0, w₀⟩ events).1,
      (loop programs o.debug ⟨ctx, 0, w₀⟩ events).2) := by
  simp only [run, hwords, runWith, hcreate, hcommand]

theorem run_line {line : String} (hwords : Options.parse words = .run o) (hcommand : o.command = some (.text line))
    (hcreate : (Context.create { directory := o.directory }).run w = (.ok ctx, w₀)) :
    run programs words events w =
      let e := Execution.of programs o.debug ctx w₀ line
      (.status e.code, { e.world with out := w₀.out ++ e.world.out, err := w₀.err ++ e.told }) := by
  simp only [run, hwords, runWith, hcreate, hcommand, runLine_eq]
  generalize Execution.of programs o.debug ctx w₀ line = e
  cases hexits : e.exits <;> simp [Execution.lineEnd, hexits]

end Program

/-- What two runs of the program leave that give the same answers and begin in the same world, where the second
    debugs. Only the trees are more: each stands before what is told in running its line. -/
structure TreesApart (origin : World) (answers : List Answer) (plain debugged : ProgramEnd × World) : Prop where
  ends : debugged.1 = plain.1
  world : debugged.2 = { plain.2 with err := debugged.2.err }
  plain_err : plain.2.err = origin.err ++ answers.flatMap Answer.told
  debugged_err : debugged.2.err = origin.err ++ answers.flatMap fun a => a.tree ++ a.told

/-- To debug only adds the trees. Without a line to run, the program gives the same answers to all events, each of
    them from and to the same context. With one, it runs that line in the same way. If no session can start,
    there is no difference. An option for a line whose value was dropped gives no line to compare. -/
theorem run_debug_adds_trees (programs : Programs) (words words' : List String) (o : Options) (w : World)
    (hplain : Options.parse words = .run { o with debug := false })
    (hdebug : Options.parse words' = .run { o with debug := true }) :
    (∀ events ctx w₀, o.command = none → (Context.create { directory := o.directory }).run w = (.ok ctx, w₀) →
      ∃ answers code, (run programs words events w).1 = .status code ∧
        Answers programs false { context := ctx, world := w₀ } events answers code (run programs words events w).2 ∧
        Answers programs true { context := ctx, world := w₀ } events (answers.map Answer.drawn) code
          (run programs words' events w).2 ∧
        TreesApart w₀ answers (run programs words events w) (run programs words' events w)) ∧
    (∀ line events ctx w₀, o.command = some (.text line) →
      (Context.create { directory := o.directory }).run w = (.ok ctx, w₀) →
      ∃ e, e = .of programs false ctx w₀ line ∧ e.drawn = .of programs true ctx w₀ line ∧
        (run programs words events w).1 = .status e.code ∧
        TreesApart w₀ [⟨.line line, some e⟩] (run programs words events w) (run programs words' events w)) ∧
    ∀ events e w₀, (Context.create { directory := o.directory }).run w = (.error e, w₀) →
      run programs words' events w = run programs words events w := by
  refine ⟨?_, ?_, ?_⟩
  · intro events ctx w₀ hcommand hcreate
    obtain ⟨answers, hanswers, hanswers', hloop⟩ := loop_debug programs ⟨ctx, 0, w₀⟩ w₀.err events
    change loop programs true ⟨ctx, 0, w₀⟩ events = _ at hloop
    rw [run_events hplain hcommand hcreate, run_events hdebug hcommand hcreate]
    refine ⟨answers, _, rfl, hanswers, ?_, ?_⟩
    · have hcode := congrArg Prod.fst hloop
      exact hcode ▸ hanswers'
    · rw [hloop]
      exact ⟨rfl, rfl, hanswers.err, rfl⟩
  · intro line events ctx w₀ hcommand hcreate
    refine ⟨_, rfl, (Execution.of_drawn line).symm, ?_⟩
    rw [run_line hplain hcommand hcreate, run_line hdebug hcommand hcreate]
    dsimp only
    rw [Execution.of_drawn]
    generalize Execution.of programs false ctx w₀ line = e
    exact ⟨rfl, {
      ends := congrArg ProgramEnd.status e.drawn_code
      world := by simp [Execution.drawn, behind]
      plain_err := by simp [Answer.told]
      debugged_err := by simp [Execution.drawn_told, Answer.tree, Answer.told] }⟩
  · intro events e w₀ hcreate
    simp only [run, hplain, hdebug, runWith, hcreate]

open Interpreter (crampedWorld)

/-- A line that fails after its tree is shown, one that is no command, and others that come to nothing. -/
def talkativeEvents : List Event :=
  [.line " nosuch 2> /dev/full ", .interrupt, .line "cd dev", .line "nosuch |", .line " ", .line "exit 263",
    .line "echo"]

/-- A world with a link that leads to itself. -/
def circleWorld : World :=
  { files := ⟨#[.dir 0 [("loop", 1)], .link "loop"]⟩ }

theorem run_debug_adds_trees_to_talk :
    (∃ answers, (run (fun _ => none) [] talkativeEvents crampedWorld).1 = .status 7 ∧
      Answers (fun _ => none) false { context := usualContext, world := crampedWorld } talkativeEvents answers 7
        (run (fun _ => none) [] talkativeEvents crampedWorld).2 ∧
      Answers (fun _ => none) true { context := usualContext, world := crampedWorld } talkativeEvents
        (answers.map Answer.drawn) 7 (run (fun _ => none) ["--debug"] talkativeEvents crampedWorld).2 ∧
      TreesApart crampedWorld answers (run (fun _ => none) [] talkativeEvents crampedWorld)
        (run (fun _ => none) ["--debug"] talkativeEvents crampedWorld)) ∧
    (∃ e, e = .of (fun _ => none) false usualContext crampedWorld " exit 263 " ∧
      e.drawn = .of (fun _ => none) true usualContext crampedWorld " exit 263 " ∧
      TreesApart crampedWorld [⟨.line " exit 263 ", some e⟩]
        (run (fun _ => none) ["-c", " exit 263 "] [] crampedWorld)
        (run (fun _ => none) ["-c", " exit 263 ", "--deb"] [] crampedWorld)) ∧
    run (fun _ => none) ["--debug", "--cwd", "loop"] [] circleWorld =
      run (fun _ => none) ["--cwd", "loop"] [] circleWorld := by
  have hcreate : (Context.create {}).run crampedWorld = (.ok usualContext, crampedWorld) := by rfl
  have hdebug (words : List String) (o : Options) (h : Options.parse words = .run o) :
      Options.parse ("--debug" :: words) = .run { o with debug := true } := by
    rw [Options.parse_debug_cons, h]
    rfl
  refine ⟨?_, ?_, ?_⟩
  · obtain ⟨answers, code, hstatus, hanswers, hanswers', hapart⟩ :=
      (run_debug_adds_trees (fun _ => none) [] ["--debug"] {} crampedWorld rfl (hdebug [] {} rfl)).1
        talkativeEvents _ _ rfl hcreate
    have hcode : (run (fun _ => none) [] talkativeEvents crampedWorld).1 = .status 7 := by decide +kernel
    obtain rfl : code = 7 := by
      rw [hstatus] at hcode
      exact ProgramEnd.status.inj hcode
    exact ⟨answers, hcode, hanswers, hanswers', hapart⟩
  · obtain ⟨e, he, hdrawn, -, hapart⟩ :=
      (run_debug_adds_trees (fun _ => none) ["-c", " exit 263 "] ["-c", " exit 263 ", "--deb"]
        { command := some (.text " exit 263 ") } crampedWorld (by decide +kernel) (by decide +kernel)).2.1
        " exit 263 " [] _ _ rfl hcreate
    exact ⟨e, he, hdrawn, hapart⟩
  · have hplain : Options.parse ["--cwd", "loop"] = .run { directory := some "loop" } := by decide +kernel
    have hcircle : ((Context.create { directory := some "loop" }).run circleWorld).1 =
        .error (.linkCircle "/loop") := by
      decide +kernel
    exact (run_debug_adds_trees (fun _ => none) ["--cwd", "loop"] ["--debug", "--cwd", "loop"]
      { directory := some "loop" } circleWorld hplain (hdebug _ _ hplain)).2.2 [] _ _ (Prod.ext hcircle rfl)

example : (run (fun _ => none) ["--debug"] [.line "exit  1", .line "echo"] crampedWorld).2.err =
    utf8 "exit (SimpleCommand) [args=['1']]\n" := by
  decide +kernel

end Repl

end Conch
