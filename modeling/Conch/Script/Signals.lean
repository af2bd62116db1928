-- SUMMARY: Signals by name and number, and the built-in commands trap, kill and wait.
import Conch.Script.Options

/-!
# Signals

A signal has a number and mostly a name. A script may set what is done when one comes,
send them, and wait for the processes it has put into the background.
-/

namespace Conch

namespace Script

/-- How many signals there are, the end of the shell included. -/
def signalCount : Nat := 65

/-- The names of the signals in order. The first stands for the end of the shell. -/
def signalNames : List Raw :=
  ["EXIT", "HUP", "INT", "QUIT", "ILL", "TRAP", "ABRT", "BUS", "FPE", "KILL", "USR1", "SEGV", "USR2", "PIPE", "ALRM",
    "TERM", "16", "CHLD", "CONT", "STOP", "TSTP", "TTIN", "TTOU", "URG", "XCPU", "XFSZ", "VTALRM", "PROF", "WINCH",
    "IO", "PWR", "SYS", "32", "33", "RTMIN"] ++
    (List.range 15).map (fun n => "RTMIN+" ++ toString (n + 1)) ++
    (List.range 14).map (fun n => "RTMAX-" ++ toString (14 - n)) ++ ["RTMAX"]

/-- The name of a signal. -/
def signalName (n : Nat) : Raw := (signalNames[n]?).getD (toString n)

/-- The signal that digits name. -/
def signalByNumber? (text : Raw) : Option Nat :=
  if !text.isEmpty && text.toList.all Char.isDigit && Number.ofDigits text.toList < signalCount then
    some (Number.ofDigits text.toList)
  else none

/-- The signal that a text names by number or name. -/
def signal? (text : Raw) : Option Nat :=
  match signalByNumber? text with
  | some n => some n
  | none => signalNames.findIdx? (· = text.toUpper)

/-- What is told of a process that a signal has killed. -/
def signalText : Nat → Raw
  | 1 => "Hangup"
  | 2 => ""
  | 3 => "Quit"
  | 4 => "Illegal instruction"
  | 5 => "Trace/breakpoint trap"
  | 6 => "Aborted"
  | 7 => "Bus error"
  | 8 => "Floating point exception"
  | 9 => "Killed"
  | 10 => "User defined signal 1"
  | 11 => "Segmentation fault"
  | 12 => "User defined signal 2"
  | 13 => ""
  | 14 => "Alarm clock"
  | 15 => "Terminated"
  | 16 => "Stack fault"
  | 24 => "CPU time limit exceeded"
  | 25 => "File size limit exceeded"
  | 26 => "Virtual timer expired"
  | 27 => "Profiling timer expired"
  | 29 => "I/O possible"
  | 30 => "Power failure"
  | 31 => "Bad system call"
  | n => if 34 ≤ n then "Real-time signal " ++ toString (n - 34) else "Unknown signal " ++ toString n

/-- Tell of a process that a signal has killed. -/
def tellEnding : Ending → ShellM Unit
  | .killed n => if (signalText n).isEmpty then return () else putError (signalText n ++ "\n")
  | .exited _ => return ()

/-! ## Traps -/

/-- Set what is done at signals. -/
def setTraps (action : Option Raw) : List Raw → ShellM Nat
  | [] => return 0
  | word :: rest => do
    match signal? word with
    | none =>
      putError ("trap: " ++ word ++ ": bad trap\n")
      return 1
    | some n =>
      modify fun s =>
        let others := s.traps.filter (·.1 ≠ n)
        { s with traps := match action with
            | some text => (n, text) :: others
            | none => others }
      setTraps action rest

/-- Set or show what is done at signals. -/
def trap (args : List Raw) : ShellM Nat := do
  let (_, args) ← takeOptions "" args
  match args with
  | [] =>
    let s ← get
    (List.range signalCount).forM fun n => do
      if let some text := s.traps.lookup n then
        put ("trap -- " ++ quoted text ++ " " ++ signalName n ++ "\n")
    return 0
  | [word] => setTraps none [word]
  | word :: rest =>
    if (signalByNumber? word).isSome then setTraps none (word :: rest)
    else setTraps (if word = "-" then none else some word) rest

/-! ## Sending -/

/-- How the sending of signals is to be asked for. -/
def killUsage : Raw :=
  "Usage: kill [-s sigspec | -signum | -sigspec] [pid | job]... or\nkill -l [exitstatus]"

/-- Send a signal to a process. Gives whether it is there. -/
def send (n : Nat) (process : Nat) : ShellM Bool := do
  let s ← get
  if process = ownProcess then
    if n = 0 then return true
    if s.level = 0 then takeSignal n else set { s with posted := s.posted ++ [n] }
    return true
  else if s.background.any (·.process = process) then
    if n = 0 || harmlessSignals.contains n then return true
    let strike (b : Background) : Background := match b.fate with
      | .waiting _ => if b.process = process then { b with fate := .ended (.killed n) } else b
      | .ended _ => b
    set { s with background := s.background.map strike }
    return true
  else return false

/-- Send a signal to processes one after the other. -/
def sendAll (n : Nat) : List Raw → Bool → ShellM Bool
  | [], isGood => return isGood
  | word :: rest, isGood => do
    if word.startsWith "%" then trouble ("No such job: " ++ word)
    let process ← if word.startsWith "-" then number (String.ofList (word.toList.drop 1)) else number word
    if ← send n (if process = 0 then ownProcess else process) then sendAll n rest isGood
    else
      complain "No such process\n"
      sendAll n rest false

/-- Send a signal, or show the names of signals. -/
def kill (args : List Raw) : ShellM Nat := do
  match args with
  | [] => trouble killUsage
  | first :: others =>
    let direct := if first.startsWith "-" then signal? (String.ofList (first.toList.drop 1)) else none
    let (signal, isList, operands) ← match direct with
      | some n => pure (some n, false, others)
      | none =>
        if !first.startsWith "-" then pure (none, false, args)
        else do
          let (options, operands) ← takeOptions "ls:" args
          let signal ← options.foldlM (fun found (letter, value) => do
            if letter = 's' then
              match signal? value with
              | some n => pure (some n)
              | none => trouble ("invalid signal number or name: " ++ value)
            else pure found) (none : Option Nat)
          pure (signal, options.any (·.1 = 'l'), operands)
    if isList then
      match operands with
      | [] =>
        put "0\n"
        (signalNames.drop 1).forM fun name => put (name ++ "\n")
        return 0
      | word :: _ =>
        let n ← number word
        let n := if 128 < n then n - 128 else n
        if 0 < n && n < signalCount then
          put (signalName n ++ "\n")
          return 0
        else trouble ("invalid signal number or exit status: " ++ word)
    else if operands.isEmpty then trouble killUsage
    else return if ← sendAll (signal.getD 15) operands true then 0 else 1

/-! ## Waiting -/

/-- Run a process of the background to its end, and give its status. The first time it is told if a
    signal has killed it. -/
def settle (process : Nat) : ShellM (Option Nat) := do
  settleAll
  let s ← get
  match s.background.find? (·.process = process) with
  | some { fate := .ended e, isTold, .. } =>
    let note (b : Background) : Background := if b.process = process then { b with isTold := true } else b
    set { s with background := s.background.map note }
    if !isTold then tellEnding e
    return some e.status
  | _ => return none

/-- Wait for processes one after the other. -/
def waitFor : List Raw → Nat → ShellM Nat
  | [], status => return status
  | word :: rest, status => do
    if word.startsWith "%" then trouble ("No such job: " ++ word)
    match ← settle (← number word) with
    | some status => waitFor rest status
    | none => waitFor rest status

/-- Wait for processes in the background. -/
def wait (args : List Raw) : ShellM Nat := do
  let (_, args) ← takeOptions "" args
  match args with
  | [] =>
    settleAll
    return 0
  | words => waitFor words 127

end Script

end Conch
