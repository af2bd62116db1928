-- SUMMARY: The program sh, which runs a script from a text, a file or its input.
import Conch.Script.Run

/-!
# Starting scripts

The arguments tell where the script is: the first operand is the script itself, or a
file that holds it, or the script is read from the input. Lines are read as they are
needed, so the commands of a script may read what follows it in the input.
-/

namespace Conch

namespace Script

/-- The streams that a program starts with. -/
def streamsOf (i : Invocation) : List (Nat × Channel) :=
  let all := [(0, { input := i.stdin : Channel }), (1, { output := i.stdout }), (2, { output := i.stderr })] ++ i.others
  all.filter fun c => c.2 ≠ {}

/-- The variables that every shell starts with. -/
def ownVariables : List Variable :=
  [ ⟨"OPTIND", some "1", false, false⟩, ⟨"PS4", some "+ ", false, false⟩, ⟨"PS2", some "> ", false, false⟩,
    ⟨"PS1", some "# ", false, false⟩, ⟨"PATH", some standardPath, false, false⟩,
    ⟨"IFS", some defaultSeparators, false, false⟩ ]

/-- The state that a shell starts with. -/
def initial (i : Invocation) : Shell :=
  let start : Shell :=
    { label := i.name, line := 0, bindings := ownVariables, streams := streamsOf i, directory := i.directory
      ignored := i.ignored }
  let inherit (s : Shell) (v : Raw × Raw) : Shell :=
    if isName v.1 then s.withVariable { name := v.1, value := some v.2, isExported := true } else s
  let s := i.environment.foldl inherit start
  let own (s : Shell) (name value : Raw) : Shell :=
    s.withVariable { (s.variableNamed? name).getD { name, value := none } with value := some value }
  own (own (own s "IFS" defaultSeparators) "OPTIND" "1") "PPID" (toString (ownProcess - 1))

/-- Find out the path of the directory that a shell starts in. A variable may give it, if it leads
    there. -/
def findHere : ShellM Unit := do
  let s ← get
  let given := (s.value? "PWD").filter (·.startsWith "/")
  let here ← match given with
    | some path =>
      match ← call (.enter FileSystem.root (Raw.decode path)) with
      | .ok node => pure (if node = s.directory then some path else none)
      | .error _ => pure none
    | none => pure none
  noteDirectory here false

/-- Run the script in the input of the shell. -/
def runInput (programs : Programs) : ShellM Unit := do
  let _ ← runText programs {} manyRounds { text := [], more := some .input, isShown := true } true 0

/-- Do what the arguments of a shell ask for. -/
def runArguments (programs : Programs) (args : List Raw) : ShellM Unit := do
  findHere
  let (words, _, request) ← turnAll true (args.length + 1) args {}
  let _ ← flush
  if request.isText then
    match words with
    | [] => trouble "-c requires an argument"
    | text :: rest =>
      modify fun s =>
        match rest with
        | [] => { s with line := 1 }
        | label :: parameters => { s with label, parameters, line := 1 }
      let _ ← runText programs {} manyRounds { text := text.toList } false 0
      if (← get).isOn "stdin" then runInput programs
  else
    match words with
    | path :: parameters =>
      if (← get).isOn "stdin" then
        modify fun s => { s with parameters := words, line := 1 }
        runInput programs
      else
        match ← openPath path .read with
        | .error e => openTrouble false path e
        | .ok c =>
          modify fun s => { s with label := path, parameters, line := 1 }
          let _ ← runText programs {} manyRounds { text := [], more := some (.source c.input), isShown := true } true 0
    | [] =>
      modify fun s => { s.turn "stdin" true with line := 1 }
      runInput programs

/-- Run a script as a program. -/
def sh (programs : Programs) (i : Invocation) : Job Ending := do
  let outcome ← contained programs manyRounds (runArguments programs i.args) (initial i)
  return outcome.ending

end Script

end Conch
