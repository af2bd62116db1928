-- SUMMARY: The state of a shell, and what its commands do with it.
import Conch.Program.Number
import Conch.Script.Reader

/-!
# Shells

A shell runs the commands of a script. It has variables, parameters, functions,
open streams and a directory of its own; all of that is its state. A part of a
script that runs by itself gets a copy of the state.

A command may end the shell, or fail in a way that ends the command around it. Output
of a built-in command is collected and written out when the command is over.
-/

namespace Conch

namespace Script

/-! ## State -/

/-- A variable. One without a value may still be marked. -/
structure Variable where
  name : Raw
  value : Option Raw
  isExported : Bool := false
  isReadOnly : Bool := false
  deriving DecidableEq, Repr

/-- What is left out of the commands that follow. -/
inductive Skip where
  | nothing
  /-- Leave a loop. -/
  | leave
  /-- Go on with the next round of a loop. -/
  | again
  /-- Leave a function or a file with a status. -/
  | back
  /-- Leave a function or a file with the status it has. -/
  | backAsIs
  deriving DecidableEq, Repr

/-- What has become of a process in the background. -/
inductive Fate where
  /-- It has not been run so far. -/
  | waiting (job : Job Ending)
  | ended (e : Ending)

/-- A process in the background. -/
structure Background where
  process : Nat
  fate : Fate
  /-- Whether it was told how it ended. -/
  isTold : Bool := false

/-- The state of a shell. -/
structure Shell where
  /-- The name of the shell or of its script, before diagnostics. -/
  label : Raw
  /-- The line of the command that is run. -/
  line : Nat := 1
  /-- The built-in command that is run, for diagnostics. -/
  acting : Option Raw := none
  parameters : List Raw := []
  bindings : List Variable := []
  /-- Variables to be put back, for each function or command with variables of its own. -/
  saved : List (List (Raw × Option Variable)) := []
  /-- The names of the options that are on. -/
  options : List Raw := []
  functions : List (Raw × Tree) := []
  aliases : List (Raw × Raw) := []
  /-- Where programs were found. -/
  places : List (Raw × Raw) := []
  /-- What is done at a signal; signal zero is the end. An empty text means nothing is done. -/
  traps : List (Nat × Raw) := []
  /-- The signals that were ignored from the start. -/
  ignored : List Nat := []
  /-- The signals that came and are still to be handled. -/
  pending : List Nat := []
  /-- The signals for the shell that this one is a part of. -/
  posted : List Nat := []
  status : Nat := 0
  /-- The status of the last command that stood in a word. -/
  substituted : Nat := 0
  /-- The status from before a trap. -/
  kept : Option Nat := none
  skip : Skip := .nothing
  /-- How many loops are left. -/
  skipCount : Nat := 0
  /-- How many loops are around. -/
  loops : Nat := 0
  documents : List Document := []
  nextDocument : Nat := 0
  streams : List (Nat × Channel) := []
  /-- The streams that a redirection has closed. One of them counts as closed from the start wherever a
      command with redirections puts it back. -/
  closed : List Nat := []
  directory : Ino
  /-- The path of the directory, if it is known. -/
  here : Option Raw := none
  background : List Background := []
  nextProcess : Nat := 0
  lastBackground : Option Nat := none
  /-- How many functions call each other. -/
  depth : Nat := 0
  /-- How many shells this one is a part of. -/
  level : Nat := 0
  /-- The output of the built-in command that is run, the latest first. -/
  output : List Raw := []
  /-- The parameter that options are taken from next, counted from one. -/
  optionIndex : Nat := 1
  /-- How far options were taken from the parameter before. -/
  optionOffset : Option Nat := none
  /-- The mask for the modes of new files. -/
  mask : Nat := 18

/-- How a shell comes to its end before its script does. -/
inductive Stop where
  /-- With its status. -/
  | exit
  /-- The same, because that was asked for. -/
  | request
  /-- Something is wrong. -/
  | trouble
  /-- The process became another one, or was killed. -/
  | ended (e : Ending)
  deriving DecidableEq, Repr

/-- What a shell does. -/
abbrev ShellM := ExceptT Stop (StateT Shell Job)

/-- Make a call on the world. -/
def call (c : Call) : ShellM c.Reply :=
  liftM (Job.call c)

/-- Set the status. -/
def setStatus (code : Nat) : ShellM Unit :=
  modify fun s => { s with status := code }

/-- Whether an option is on. -/
def Shell.isOn (s : Shell) (option : Raw) : Bool := s.options.contains option

/-- The process that a script knows itself by. -/
def ownProcess : Nat := 4321

/-! ## Streams -/

/-- The stream with a number. -/
def Shell.stream (s : Shell) (n : Nat) : Channel := (s.streams.lookup n).getD {}

/-- Set or close a stream. -/
def Shell.withStream (s : Shell) (n : Nat) (c : Option Channel) : Shell :=
  let others := s.streams.filter (·.1 ≠ n)
  { s with streams := match c with
      | some c => (n, c) :: others
      | none => others }

/-- The signals that end no process when nothing else is done at them. -/
def harmlessSignals : List Nat := [17, 18, 19, 20, 21, 22, 23, 28]

/-- Take a signal: it is ignored, noted for its trap, or ends the shell. -/
def takeSignal (n : Nat) : ShellM Unit := do
  let s ← get
  if n = 9 then throw (.ended (.killed n))
  match s.traps.lookup n with
  | some "" => return ()
  | some _ => set { s with pending := s.pending ++ [n] }
  | none =>
    if s.ignored.contains n || harmlessSignals.contains n then return ()
    else throw (.ended (.killed n))

/-- Write to a sink. Gives whether that was possible. -/
def writeTo (sink : Sink) (text : Raw) : ShellM Bool := do
  if text.isEmpty then return true
  match ← call (.write sink (Raw.bytes text)) with
  | .ok () => return true
  | .error .brokenPipe =>
    takeSignal pipeSignal
    return false
  | .error _ => return false

/-- Collect output. -/
def put (text : Raw) : ShellM Unit :=
  modify fun s => { s with output := text :: s.output }

/-- Write out the output that was collected. Gives whether that was possible. -/
def flush : ShellM Bool := do
  let s ← get
  set { s with output := [] }
  writeTo (s.stream 1).output (String.join s.output.reverse)

/-- Write text to the diagnostics. -/
def putError (text : Raw) : ShellM Unit := do
  let _ ← writeTo ((← get).stream 2).output text

/-- Write a diagnostic. -/
def complain (text : Raw) : ShellM Unit := do
  let s ← get
  let acting := match s.acting with
    | some name => name ++ ": "
    | none => ""
  putError (s.label ++ ": " ++ toString s.line ++ ": " ++ acting ++ text ++ "\n")

/-- Tell of trouble and give up. -/
def trouble {α : Type} (text : Raw) : ShellM α := do
  setStatus 2
  complain text
  let _ ← flush
  throw .trouble

/-! ## Numbers -/

/-- Tell that a text is no number. -/
def badNumber {α : Type} (text : Raw) : ShellM α := trouble ("Illegal number: " ++ text)

/-- The number that a text means in a base of its own or in base ten. Blanks may stand around it. -/
def wholeNumber? (anyBase : Bool) (text : Raw) : Option Int :=
  let cs := text.toList.dropWhile Number.isBlank
  let (isNegative, cs) := match cs with
    | '-' :: cs => (true, cs)
    | '+' :: cs => (false, cs)
    | cs => (false, cs)
  match if anyBase then Number.anyBase? cs else Number.digitsIn? 10 cs with
  | some (n, rest) =>
    let n : Int := if isNegative then -(n : Int) else n
    if (rest.dropWhile Number.isBlank).isEmpty && Number.clampSigned n = n then some n else none
  | none => none

/-- The number that an argument means. -/
def decimal (text : Raw) : ShellM Int :=
  match wholeNumber? false text with
  | some n => return n
  | none => badNumber text

/-- The number that an argument means, which is not below zero and not large. -/
def number (text : Raw) : ShellM Nat := do
  let n ← decimal text
  if n < 0 || 2147483647 < n then badNumber text else return n.toNat

/-! ## Variables -/

/-- The variable with a name, if there is one. -/
def Shell.variableNamed? (s : Shell) (name : Raw) : Option Variable :=
  s.bindings.find? (·.name = name)

/-- The value of a variable. -/
def Shell.value? (s : Shell) (name : Raw) : Option Raw :=
  (s.variableNamed? name).bind (·.value)

/-- Put a variable in its place, or at the end. -/
def Shell.withVariable (s : Shell) (v : Variable) : Shell :=
  if (s.variableNamed? v.name).isSome then
    { s with bindings := s.bindings.map fun w => if w.name = v.name then v else w }
  else { s with bindings := s.bindings ++ [v] }

/-- Take a variable away. -/
def Shell.without (s : Shell) (name : Raw) : Shell :=
  { s with bindings := s.bindings.filter (·.name ≠ name) }

/-- What follows when a variable has changed. -/
def noteChange (name : Raw) : ShellM Unit := do
  if name = "PATH" then modify fun s => { s with places := [] }
  else if name = "OPTIND" then
    let text := ((← get).value? name).getD ""
    let n ← if text.isEmpty then pure 0 else number text
    modify fun s => { s with optionIndex := max n 1, optionOffset := none }

/-- Set a variable or take its value away, and mark it. -/
def setVariable (name : Raw) (value : Option Raw) (exports readOnly : Bool) : ShellM Unit := do
  if !isName name then trouble (name ++ ": bad variable name")
  let s ← get
  let exports := exports || s.isOn "allexport"
  match s.variableNamed? name with
  | some v =>
    if v.isReadOnly then
      trouble (name ++ ": is read only")
    let v := { v with value, isExported := v.isExported || exports, isReadOnly := v.isReadOnly || readOnly }
    if value.isNone && !exports && !readOnly then set (s.without name) else set (s.withVariable v)
  | none =>
    if value.isNone && !exports && !readOnly then return ()
    set (s.withVariable { name, value, isExported := exports, isReadOnly := readOnly })
  noteChange name

/-- Set a variable. -/
def assign (name value : Raw) : ShellM Unit := setVariable name (some value) false false

/-- Begin a scope for variables. -/
def openScope : ShellM Unit :=
  modify fun s => { s with saved := [] :: s.saved }

/-- Note how a variable is, to be put back at the end of the scope. -/
def saveVariable (name : Raw) : ShellM Unit :=
  modify fun s =>
    match s.saved with
    | scope :: rest => { s with saved := ((name, s.variableNamed? name) :: scope) :: rest }
    | [] => s

/-- End a scope for variables. -/
def closeScope : ShellM Unit := do
  let s ← get
  match s.saved with
  | scope :: rest =>
    set { s with saved := rest }
    scope.forM fun (name, v) => do
      modify fun s =>
        match v with
        | some v =>
          if name = "-" then { s with options := ((v.value.getD "").splitOn " ").filter (· ≠ "") }
          else s.withVariable v
        | none => s.without name
      noteChange name
  | [] => return ()

/-- The number of rows that variables are kept in. -/
def rowCount : Nat := 39

/-- The row of a variable by its name. -/
def rowOf (name : Raw) : Nat :=
  let cs := name.toList.map Char.toNat
  (cs.headD 0 * 16 + cs.foldl (· + ·) 0) % rowCount

/-- The variables that programs are started with, row by row. -/
def Shell.environment (s : Shell) : List (Raw × Raw) :=
  (List.range rowCount).flatMap fun row =>
    s.bindings.filterMap fun v =>
      if v.isExported && rowOf v.name = row then v.value.map fun value => (v.name, value) else none

/-- Whether characters stand before others, or are the same, in byte order. -/
def areInOrder : List Char → List Char → Bool
  | [], _ => true
  | _ :: _, [] => false
  | a :: as, b :: bs => a.toNat < b.toNat || (a = b && areInOrder as bs)

/-- Whether a name stands before another in byte order. -/
def before (a b : Raw) : Bool := areInOrder a.toList b.toList

/-- A text in single quotes, so that it is read as it is. -/
def quoted (text : Raw) : Raw :=
  let rec go : Nat → List Char → List Char
    | 0, _ => []
    | fuel + 1, cs =>
      let plain := cs.takeWhile (· ≠ '\'')
      let rest := cs.drop plain.length
      let marks := rest.takeWhile (· = '\'')
      let after := rest.drop marks.length
      let start := '\'' :: plain ++ ['\'']
      if marks.isEmpty then start
      else
        let both := start ++ '"' :: marks ++ ['"']
        if after.isEmpty then both else both ++ go fuel after
  String.ofList (go (text.length + 1) text.toList)

/-- Write variables by name, each after some text. -/
def showVariables (lead : Raw) (which : Variable → Bool) : ShellM Unit := do
  let vs := ((← get).bindings.filter which).mergeSort fun a b => before a.name b.name
  vs.forM fun v => put (lead ++ v.name ++ (match v.value with
    | some value => "=" ++ quoted value
    | none => "") ++ "\n")

/-! ## Parts that run by themselves -/

/-- The state of a shell that is a part of another one. Traps are gone, but what is ignored stays so. -/
def Shell.part (s : Shell) : Shell :=
  { s with
    traps := s.traps.filter (·.2 = "")
    pending := [], posted := [], skip := .nothing, skipCount := 0
    background := [], level := s.level + 1, kept := none }

/-- Run the processes that are waiting in the background. -/
def settleAll : ShellM Unit := do
  let s ← get
  set { s with background := [] }
  let settled ← s.background.mapM fun b => do
    match b.fate with
    | .waiting job => return { b with fate := .ended (← liftM job) }
    | .ended _ => return b
  modify fun s => { s with background := settled ++ s.background }

end Script

end Conch
