-- SUMMARY: Running scripts: commands, functions, parts in parentheses, pipelines and programs.
import Conch.Script.Commands
import Conch.Script.Coupling

/-!
# Running scripts

A command is run for its status and for what it does to the shell. A part in
parentheses, a stage of a pipeline and a command in a word run in a shell of their own,
which is a copy of the one around. Programs run with the streams and variables of the shell
that starts them.

A process in the background is run when the shell waits for it, before the shell starts
another process, and at the end.
-/

namespace Conch

namespace Script

/-- What is around a command. -/
structure Around where
  /-- Its status is looked at, so that a failure does not end the shell. -/
  isTested : Bool := false
  /-- Nothing comes after it. -/
  isLast : Bool := false

/-- Where the text of a script comes from. -/
inductive Supply where
  | source (s : Source)
  /-- The input of the shell, whatever that is at the time. -/
  | input
  deriving DecidableEq, Repr

/-- The text of a script that is still to be read. -/
structure Input where
  text : List Char
  line : Nat := 1
  /-- Where more of it comes from. -/
  more : Option Supply := none
  /-- Lines are shown as they are read, if the shell is asked to. -/
  isShown : Bool := false

/-- Whether something is done at a signal or at the end. -/
def Shell.hasTraps (s : Shell) : Bool := s.traps.any (·.2 ≠ "")

/-- Do something, and then something else even if the first comes to a stop. -/
def afterwards {α : Type} (body : ShellM α) (last : ShellM Unit) : ShellM α := do
  let result ← tryCatch body fun stop => do
    last
    throw stop
  last
  return result

/-- How many functions may call each other. -/
def mostCalls : Nat := 1000

/-- What a shell of its own has come to. -/
structure Outcome where
  ending : Ending
  /-- The signals for the shell around. -/
  posted : List Nat := []

/-- Take over what a shell of its own has come to, and give its status. -/
def takeOutcome (o : Outcome) : ShellM Nat := do
  let s ← get
  if s.level = 0 then o.posted.forM takeSignal else set { s with posted := s.posted ++ o.posted }
  tellEnding o.ending
  return o.ending.status

/-- The end of a round of a loop: what is skipped, seen from the loop. -/
def endRound : ShellM Skip := do
  let s ← get
  match s.skip with
  | .leave | .again =>
    if s.skipCount ≤ 1 then
      set { s with skip := .nothing, skipCount := 0 }
      return s.skip
    else
      set { s with skipCount := s.skipCount - 1 }
      return .leave
  | skip => return skip

/-- Whether a loop goes on after a round. -/
def goesOn (skip : Skip) : Bool := skip = .nothing || skip = .again

/-- Read more of a script; nothing if there is no more now. -/
def moreText : Option Supply → ShellM (List Char)
  | none => return []
  | some supply => do
    let input := ((← get).stream 0).input
    let source := match supply with
      | .source s => s
      | .input => input
    match ← call (.read source 8191) with
    | .ok data => return (Raw.ofBytes data).toList
    | .error _ => return []

/-- Read the next line of a script. What is needed of it is read first. `fuel` bounds how
    often more is read. -/
def nextLine : Nat → Input → ShellM (Option Tree × Bool × Input)
  | 0, input => return (none, true, input)
  | fuel + 1, input => do
    let s ← get
    let result := readLine.run
      { rest := input.text, line := input.line, aliases := s.aliases, nextDocument := s.nextDocument }
    let isShort := match result with
      | .ok ((_, isOver), r) => isOver || r.isCut
      | .error e => e.atEnd
    let more ← if isShort then moreText input.more else pure []
    if !more.isEmpty then nextLine fuel { input with text := input.text ++ more.filter (· ≠ '\x00') }
    else
      let showRead (rest : List Char) : ShellM Unit := do
        if input.isShown && s.isOn "verbose" then
          putError (String.ofList (input.text.take (input.text.length - rest.length)))
      match result with
      | .error e =>
        showRead []
        modify fun s => { s with line := e.line }
        trouble ("Syntax error: " ++ e.message)
      | .ok ((tree, isOver), r) =>
        showRead r.rest
        modify fun s => { s with documents := r.documents ++ s.documents, nextDocument := r.nextDocument }
        let isOver := isOver && (input.more.isNone || tree.isNone)
        return (tree, isOver, { input with text := r.rest, line := r.line })

/-- The text that stands before a command that is shown. -/
def showLead (run : Substitute) : ShellM Raw := do
  let text := ((← get).value? "PS4").getD ""
  match (readPieces manyRounds .document [] false).run { rest := text.toList } with
  | .ok ((w, _), _) => expandDocument run w
  | .error _ => return text

/-- How the command that words name was found, and what is still to be expanded. -/
structure Head where
  /-- The words so far, from the name of the command on. -/
  fields : List Raw := []
  rest : List Word := []
  /-- All words so far. -/
  shown : List Raw := []
  /-- Whether the first built-in command is special; nothing if there was none. -/
  isSpecial : Option Bool := none
  /-- Functions are passed over. -/
  noFunctions : Bool := false
  path : Option Raw := none

/-- Expand words until there is a field. -/
def firstFields (run : Substitute) : List Word → ShellM (List Raw × List Word)
  | [] => return ([], [])
  | w :: rest => do
    let fields ← expandFields run w
    if fields.isEmpty then firstFields run rest else return (fields, rest)

/-- The fields so far after the first ones, with more expanded if there are none. -/
def moreFields (run : Substitute) (h : Head) (rest : List Raw) : ShellM (List Raw × Head) := do
  if !rest.isEmpty then return (rest, h)
  let (fields, words) ← firstFields run h.rest
  return (fields, { h with rest := words, fields := h.fields ++ fields, shown := h.shown ++ fields })

/-- Look through the options of a command that runs another one. Gives the words from the other one
    on, if there is one. `fuel` bounds the words. -/
def passOptions (run : Substitute) : Nat → Head → List Raw → ShellM (Option (List Raw) × Head)
  | 0, h, _ => return (none, h)
  | fuel + 1, h, rest => do
    let (fields, h) ← moreFields run h rest
    match fields with
    | [] => return (none, h)
    | word :: after =>
      if word = "--" then
        let (fields, h) ← moreFields run h after
        return (if fields.isEmpty then none else some fields, h)
      else if !word.startsWith "-" || word = "-" then return (some fields, h)
      else if word.toList.drop 1 |>.all (· = 'p') then
        passOptions run fuel { h with path := some standardPath } after
      else return (none, h)

/-- Find out which command is meant. `fuel` bounds how often one command runs another. -/
def findHead (run : Substitute) : Nat → Head → ShellM Head
  | 0, h => return h
  | fuel + 1, h => do
    match h.fields with
    | [] => return h
    | name :: rest =>
      if !h.noFunctions && ((← get).functions.lookup name).isSome then return h
      else if !isBuiltin name then return h
      else
        let h := { h with isSpecial := some (h.isSpecial.getD (specialNames.contains name)) }
        if name ≠ "command" then return h
        match ← passOptions run manyRounds h rest with
        | (none, h) => return h
        | (some fields, h) => findHead run fuel { h with fields, noFunctions := true }

/-- The fields of an argument. An assignment stays one field for commands that take assignments. -/
def expandArgument (run : Substitute) (takesAssignments : Bool) (w : Word) : ShellM (List Raw) := do
  match if takesAssignments then assignment? w else none with
  | some (name, value) => return [name ++ "=" ++ (← expandValue run value)]
  | none => expandFields run w

/-- The streams of a program that the shell starts, and the rest of its surroundings. -/
def invocation (name : Raw) (args : List Raw) : ShellM Invocation := do
  let s ← get
  return {
    name, args, directory := s.directory, environment := s.environment
    stdin := (s.stream 0).input, stdout := (s.stream 1).output, stderr := (s.stream 2).output
    others := s.streams.filter (3 ≤ ·.1)
    ignored := s.ignored ++ (s.traps.filter (·.2 = "")).map (·.1) }

/-- Start a program from a file. A file that is none is taken for a script. -/
def startAt (programs : Programs) (path name : Raw) (args : List Raw) : ShellM (Except Errno (Job Ending)) := do
  liftM (Execution.startOrInterpret programs path (← invocation name args))

/-- Start the first of some files that can be. -/
def startFirst (programs : Programs) (name : Raw) (args : List Raw) : List Raw → Errno →
    ShellM (Except Errno (Job Ending))
  | [], e => return .error e
  | path :: rest, e => do
    match ← startAt programs path name args with
    | .ok job => return .ok job
    | .error .noEntry | .error .notDirectory => startFirst programs name args rest e
    | .error e => startFirst programs name args rest e

/-- The status for a program that cannot be started. -/
def startStatus : Errno → Nat
  | .linkLoop | .nameTooLong | .noEntry | .notDirectory => 127
  | _ => 126

/-- Become another program. -/
def become (programs : Programs) (args : List Raw) : ShellM Nat := do
  match args with
  | [] => return 0
  | name :: args =>
    settleAll
    let s ← get
    let paths := if name.toList.contains '/' then [name] else candidates s.searchPath name
    match ← startFirst programs name args paths .noEntry with
    | .ok job => throw (.ended (← liftM job))
    | .error e =>
      complain (name ++ ": " ++ startText e)
      setStatus (startStatus e)
      throw .exit

/-- Run a program and wait for its end. -/
def runProgram (programs : Programs) (a : Around) (h : Head) (name : Raw) (args : List Raw) : ShellM Nat := do
  let place ← if name.toList.contains '/' then pure (.ok name)
    else match h.path with
      | some path => findIn path name
      | none => findProgram name
  match place with
  | .error e =>
    complain (name ++ ": " ++ startText e)
    setStatus 127
    return 127
  | .ok path =>
    settleAll
    match ← startAt programs path name args with
    | .ok job =>
      let ending ← liftM job
      if a.isLast && !(← get).hasTraps then throw (.ended ending)
      tellEnding ending
      setStatus ending.status
    | .error e =>
      complain (name ++ ": " ++ startText e)
      setStatus (startStatus e)
    return (← get).status

/-- Call a built-in command: its output is written out at its end, and its trouble ends the shell only
    if it is special. -/
def callBuiltin (isSpecial : Bool) (name : Raw) (body : ShellM Nat) : ShellM Nat := do
  let acting := (← get).acting
  modify fun s => { s with acting := some name }
  let clean : ShellM Unit := modify fun s => { s with acting, output := [] }
  afterwards (tryCatch (do
    let status ← body
    let isWritten ← flush
    if !isWritten then complain (name ++ ": I/O error")
    setStatus (if isWritten then status else status ||| 1)
    return (← get).status) fun stop => do
    match stop with
    | .trouble => if isSpecial then throw stop else return (← get).status
    | stop => throw stop) clean

/-- Run a job for each stage with pipes between them. -/
def coupleAll : Job (List Outcome) → List (Nat × Job Outcome) → Job (List Outcome)
  | before, [] => before
  | before, (pipe, stage) :: rest =>
    coupleAll ((before.couple pipe stage).bind fun (outcomes, outcome) => .done (outcomes ++ [outcome])) rest

/-- What is done at the next signal that came, if anything is. -/
def nextTrap : ShellM (Option Raw) := do
  let s ← get
  if s.skip ≠ .nothing then return none
  match s.pending with
  | [] => return none
  | n :: rest =>
    let n := rest.foldl min n
    set { s with pending := s.pending.filter (· ≠ n) }
    return some ((s.traps.lookup n).getD "")

/-- The state of a process in the background: it has no input, and is not interrupted. -/
def detached (s : Shell) : Shell :=
  let own := s.part
  { own.withStream 0 (some { input := .empty }) with ignored := 2 :: 3 :: own.ignored }

/-- Keep where the program of a stage of a pipeline is, if its name is a plain one. -/
def keepPlace (stage : Tree) : ShellM Unit := do
  match stage with
  | .simple _ _ ([.bare name] :: _) _ =>
    let s ← get
    if isName name && (s.functions.lookup name).isNone && !isBuiltin name then
      let _ ← findProgram name
  | _ => return ()

/-- Put a process into the background. -/
def putBehind (job : Job Outcome) : ShellM Unit :=
  modify fun s =>
    let process := ownProcess + 1 + s.nextProcess + 1000 * s.level
    { s with
      background := s.background ++ [{ process, fate := .waiting (job.bind fun o => .done o.ending) }]
      nextProcess := s.nextProcess + 1, lastBackground := some process }

mutual

/-- Run a command and give its status. `fuel` bounds how deep commands stand in each other and
    how many follow each other. -/
def runTree (programs : Programs) (a : Around) : Nat → Tree → ShellM Nat
  | 0, _ => throw .exit
  | fuel + 1, tree => do
    if (← get).isOn "noexec" then
      if a.isLast then throw .exit
      return (← get).status
    handleSignals programs fuel
    let mayEnd ← runInside programs a fuel tree
    handleSignals programs fuel
    let s ← get
    if mayEnd && !a.isTested && s.isOn "errexit" && s.status ≠ 0 then throw .exit
    if a.isLast then throw .exit
    return s.status

/-- Run a command, which sets the status. Gives whether a failure of it may end the shell. -/
def runInside (programs : Programs) (a : Around) : Nat → Tree → ShellM Bool
  | 0, _ => throw .exit
  | fuel + 1, tree => do
    let run := substitute programs fuel
    let inner : Around := { isTested := a.isTested }
    let tested : Around := { isTested := true }
    match tree with
    | .simple line assigned words redirects =>
      modify fun s => { s with line }
      setStatus (← runSimple programs a fuel assigned words redirects)
      return true
    | .redirected line body redirects =>
      modify fun s => { s with line }
      let targets ← redirects.mapM (target run)
      let before ← get
      let (touched, areSet) ← redirectAll run [] targets
      afterwards (do
        if areSet then
          setStatus (← runTree programs inner fuel body)
          return false
        setStatus 2
        return true) (restoreStreams before touched)
    | .pipeline stages inBackground =>
      setStatus (← runPipeline programs a fuel stages inBackground)
      return true
    | .subshell line body redirects =>
      modify fun s => { s with line }
      let targets ← redirects.mapM (target run)
      settleAll
      let s ← get
      let outcome ← liftM (contained programs fuel (do
        targets.forM (redirect run false [])
        let _ ← runTree programs { isTested := a.isTested, isLast := true } fuel body) s.part)
      if a.isLast && !s.hasTraps && outcome.posted.isEmpty then throw (.ended outcome.ending)
      setStatus (← takeOutcome outcome)
      return true
    | .background body redirects =>
      let targets ← redirects.mapM (target run)
      let s ← get
      putBehind (contained programs fuel (do
        targets.forM (redirect run false [])
        let _ ← runTree programs { isLast := true } fuel body) (detached s))
      setStatus 0
      return true
    | .sequence first second =>
      let _ ← runTree programs inner fuel first
      if (← get).skip = .nothing then
        let _ ← runTree programs a fuel second
      return false
    | .andThen first second =>
      let status ← runTree programs tested fuel first
      if status = 0 && (← get).skip = .nothing then
        let _ ← runTree programs a fuel second
      return false
    | .orElse first second =>
      let status ← runTree programs tested fuel first
      if status ≠ 0 && (← get).skip = .nothing then
        let _ ← runTree programs a fuel second
      return false
    | .negated body =>
      let status ← runTree programs tested fuel body
      setStatus (if (← get).skip ≠ .nothing then status else if status = 0 then 1 else 0)
      return false
    | .choice test body otherwise =>
      let status ← runTree programs tested fuel test
      if (← get).skip ≠ .nothing then return false
      if status = 0 then
        let _ ← runTree programs a fuel body
      else
        match otherwise with
        | some tree =>
          let _ ← runTree programs a fuel tree
        | none => setStatus 0
      return false
    | .repeated isUntil test body =>
      modify fun s => { s with loops := s.loops + 1 }
      let status ← repeatedly programs inner fuel isUntil test body 0
      modify fun s => { s with loops := s.loops - 1 }
      setStatus status
      return false
    | .forEach line name words body =>
      modify fun s => { s with line }
      let values ← expandAll run words
      modify fun s => { s with loops := s.loops + 1 }
      let status ← forEach programs inner fuel name body values 0
      modify fun s => { s with loops := s.loops - 1 }
      setStatus status
      return false
    | .select line subject cases =>
      modify fun s => { s with line }
      let text ← expandText run subject
      let status ← runCases programs a fuel text.toList cases
      setStatus status
      return false
    | .define name _ body =>
      modify fun s => { s with functions := (name, body) :: s.functions.filter (·.1 ≠ name) }
      setStatus 0
      return false

/-- Run a command of words. -/
def runSimple (programs : Programs) (a : Around) : Nat → List (Raw × Word) → List Word → List Redirect →
    ShellM Nat
  | 0, _, _, _ => throw .exit
  | fuel + 1, assigned, words, redirects => do
    let run := substitute programs fuel
    modify fun s => { s with substituted := 0 }
    let (fields, rest) ← firstFields run words
    let h ← findHead run manyRounds { fields, rest, shown := fields }
    let takesAssignments := match h.fields with
      | name :: _ => h.isSpecial.isSome && ["export", "readonly", "local", "alias"].contains name
      | [] => false
    let more := (← h.rest.mapM (expandArgument run takesAssignments)).flatten
    let all := h.fields ++ more
    let isSpecial := h.isSpecial.getD false
    let isScoped := !h.fields.isEmpty && !isSpecial
    let isExec := h.isSpecial.isSome && h.fields.head? = some "exec"
    let before ← get
    if isScoped then openScope
    let targets ← redirects.mapM (target run)
    let (touched, areSet) ← redirectAll run [] targets
    let told := if before.closed.contains 2 then none else before.streams.lookup 2
    let shownAt := told.getD ((← get).stream 2)
    let leave : ShellM Unit := do
      if isScoped then closeScope
      if !isExec then restoreStreams before touched
    afterwards (do
      if !areSet then
        setStatus 2
        if isSpecial then
          restoreStreams before touched
          throw .trouble
        return 2
      if isExec then hangUpUnused before.streams
      let shown ← assigned.mapM fun (name, w) => do
        let value ← expandValue run w
        if isScoped then saveVariable name
        setVariable name (some value) (isScoped || (isExec && 1 < all.length)) false
        return name ++ "=" ++ value
      if (← get).isOn "xtrace" then
        let lead ← showLead run
        let _ ← writeTo shownAt.output (lead ++ " ".intercalate (shown ++ h.shown ++ more) ++ "\n")
      match all with
      | [] => return (← get).substituted
      | name :: args =>
        if h.isSpecial.isSome && isBuiltin name then
          callBuiltin isSpecial name (runBuiltin programs a fuel name args)
        else
          let functions := (← get).functions
          match if h.noFunctions then none else functions.lookup name with
          | some body => runFunction programs a fuel body args
          | none => runProgram programs a h name args) leave

/-- Do what a built-in command does. -/
def runBuiltin (programs : Programs) (a : Around) : Nat → Raw → List Raw → ShellM Nat
  | 0, _, _ => throw .exit
  | fuel + 1, name, args => do
    match name with
    | "eval" =>
      if args.isEmpty then return 0
      runText programs { isTested := a.isTested } fuel { text := (" ".intercalate args).toList } false 0
    | "exec" => become programs args
    | "." =>
      let (_, args) ← takeOptions "" args
      match args with
      | [] => return 0
      | file :: _ =>
        let path ← if file.toList.contains '/' then pure file
          else do
            let s ← get
            let found ← (candidates s.searchPath file).findM? fun path => do
              match ← call (.stat s.directory (Raw.decode path) true) with
              | .ok (.file _) | .ok (.program _) => return true
              | _ => return false
            match found with
            | some path => pure path
            | none => trouble (file ++ ": not found")
        match ← call (.fetch (← get).directory (Raw.decode path)) with
        | .ok data =>
          modify fun s => { s with acting := some path }
          runText programs {} fuel { text := (Raw.ofBytes data).toList.filter (· ≠ '\x00'), isShown := true } true 0
        | .error .isDirectory => return 0
        | .error e => openTrouble false path e
    | name =>
      match builtin? name with
      | some body => body args
      | none => return 0

/-- Run a function with parameters. -/
def runFunction (programs : Programs) (a : Around) : Nat → Tree → List Raw → ShellM Nat
  | 0, _, _ => throw .exit
  | fuel + 1, body, args => do
    let s ← get
    if mostCalls ≤ s.depth then
      trouble ("Maximum function recursion depth (" ++ toString mostCalls ++ ") reached")
    set { s with parameters := args, loops := 0, optionIndex := 1, optionOffset := none, depth := s.depth + 1 }
    afterwards (do
      let _ ← runTree programs { isTested := a.isTested } fuel body) (modify fun t =>
        { t with
          parameters := s.parameters, loops := s.loops, depth := s.depth
          optionIndex := s.optionIndex, optionOffset := s.optionOffset })
    modify fun t => { t with skip := if t.skip = .back || t.skip = .backAsIs then .nothing else t.skip }
    return (← get).status

/-- Run a pipeline. -/
def runPipeline (programs : Programs) (a : Around) : Nat → List Tree → Bool → ShellM Nat
  | 0, _, _ => throw .exit
  | fuel + 1, stages, inBackground => do
    if !inBackground then settleAll
    let pipes ← (stages.drop 1).mapM fun _ => call .joint
    let jobs ← (List.range stages.length).mapM fun i => do
      let stage := stages.getD i default
      keepPlace stage
      let s ← get
      let start := if inBackground then detached s else s.part
      let input := if i = 0 then start.streams.lookup 0 else (pipes[i - 1]?).map fun n => { input := .joint n }
      let output := match pipes[i]? with
        | some n => some { output := .joint n }
        | none => start.streams.lookup 1
      let own := (start.withStream 0 input).withStream 1 output
      return contained programs fuel (do
        let _ ← runTree programs { isTested := a.isTested, isLast := true } fuel stage) own
    match jobs with
    | [] => return 0
    | first :: others =>
      let whole := coupleAll (first.bind fun o => .done [o]) (pipes.zip others)
      if inBackground then
        putBehind (whole.bind fun outcomes => .done (outcomes.getLastD { ending := .exited 0 }))
        return 0
      else
        let outcomes ← liftM whole
        let statuses ← outcomes.mapM takeOutcome
        return statuses.getLastD 0

/-- Run the commands of the first case whose patterns match. -/
def runCases (programs : Programs) (a : Around) : Nat → List Char → List (List Word × Option Tree) → ShellM Nat
  | 0, _, _ => throw .exit
  | _ + 1, _, [] => return 0
  | fuel + 1, text, (patterns, body) :: rest => do
    let fits ← patterns.anyM fun w => do
      return Matching.isMatch (← expandPattern (substitute programs fuel) w) text
    if !fits then runCases programs a fuel text rest
    else
      match body with
      | some tree => runTree programs a fuel tree
      | none => return 0

/-- Run a loop as long as its test says so. `status` is that of the round before. -/
def repeatedly (programs : Programs) (a : Around) : Nat → Bool → Tree → Tree → Nat → ShellM Nat
  | 0, _, _, _, _ => throw .exit
  | fuel + 1, isUntil, test, body, status => do
    let tested ← runTree programs { isTested := true } fuel test
    let skip ← endRound
    if skip ≠ .nothing then
      let status := if skip = .back || skip = .backAsIs then tested else status
      if goesOn skip then repeatedly programs a fuel isUntil test body status else return status
    else if (tested = 0) = isUntil then return status
    else
      let status ← runTree programs a fuel body
      if goesOn (← endRound) then repeatedly programs a fuel isUntil test body status else return status

/-- Run commands for each of some values. -/
def forEach (programs : Programs) (a : Around) : Nat → Raw → Tree → List Raw → Nat → ShellM Nat
  | 0, _, _, _, _ => throw .exit
  | _ + 1, _, _, [], status => return status
  | fuel + 1, name, body, value :: rest, _ => do
    assign name value
    let status ← runTree programs a fuel body
    if goesOn (← endRound) then forEach programs a fuel name body rest status else return status

/-- Run the lines of a script one after the other. With `isFile`, a return ends it. `status` is that
    of the lines before. -/
def runText (programs : Programs) (a : Around) : Nat → Input → Bool → Nat → ShellM Nat
  | 0, _, _, _ => throw .exit
  | fuel + 1, input, isFile, status => do
    let (tree, isOver, input) ← nextLine manyRounds input
    let status ← match tree with
      | some tree => runTree programs { a with isLast := a.isLast && isOver } fuel tree
      | none => pure status
    let s ← get
    if s.skip ≠ .nothing then
      if isFile && (s.skip = .back || s.skip = .backAsIs) then set { s with skip := .nothing }
      return status
    else if isOver then return status
    else runText programs a fuel input isFile status

/-- Do what is to be done at the signals that came. -/
def handleSignals (programs : Programs) : Nat → ShellM Unit
  | 0 => return ()
  | fuel + 1 => do
    match ← nextTrap with
    | none => return ()
    | some action =>
      let s ← get
      let status := s.kept.getD s.status
      set { s with kept := some status }
      let _ ← runText programs {} fuel { text := action.toList } false 0
      modify fun t => { t with kept := s.kept, status := if t.skip = .back then t.status else status }
      handleSignals programs fuel

/-- The output of a command that stands in a word. -/
def substitute (programs : Programs) : Nat → Option Tree → ShellM Raw
  | 0, _ => throw .exit
  | _ + 1, none => return ""
  | fuel + 1, some tree => do
    settleAll
    let s ← get
    let pipe ← call .joint
    let own := s.part.withStream 1 (some { output := .joint pipe })
    let outcome ← liftM (contained programs fuel (do
      let _ ← runTree programs { isLast := true } fuel tree) own)
    let status ← takeOutcome outcome
    modify fun s => { s with substituted := status }
    match ← call (.read (.joint pipe) manyRounds) with
    | .ok data => return Raw.ofBytes data
    | .error _ => return ""

/-- Run something in a shell of its own to its end: what is to be done at the end is done, and then
    the processes in the background are run. -/
def contained (programs : Programs) : Nat → ShellM Unit → Shell → Job Outcome
  | 0, _, _ => return { ending := .exited 2 }
  | fuel + 1, body, start => do
    let streams := start.streams
    let whole : ShellM Ending := do
      let stop ← tryCatch (do
        body
        return Stop.exit) fun stop => return stop
      match stop with
      | .ended e => return e
      | stop =>
        let s ← get
        let status := if stop = .request || s.skip = .backAsIs then s.kept.getD s.status else s.status
        let action := s.traps.lookup 0
        set { s with
          status, kept := none, skip := .nothing, loops := 0
          traps := s.traps.filter (·.1 ≠ 0), acting := none, output := [] }
        match action with
        | none | some "" => return .exited (status % 256)
        | some action =>
          modify fun s => { s with kept := some status }
          let stop ← tryCatch (do
            let _ ← runText programs {} fuel { text := action.toList } false 0
            return Stop.request) fun stop => return stop
          let s ← get
          match stop with
          | .ended e => return e
          | .request => return .exited (s.kept.getD status % 256)
          | _ => return .exited (s.status % 256)
    let (result, s) ← (whole.run.run { start with streams } : Job _)
    let ending := match result with
      | .ok e => e
      | .error (.ended e) => e
      | .error _ => .exited (s.status % 256)
    let (_, s) ← ((settleAll : ShellM Unit).run.run s : Job _)
    return { ending, posted := s.posted }

end

end Script

end Conch
