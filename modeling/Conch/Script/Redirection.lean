-- SUMMARY: Redirections of the streams of a shell.
import Conch.Script.Expansion

/-!
# Redirections

The targets of all redirections of a command are expanded first; then the streams are
set one after the other. What goes wrong while that is done is told, and the command
is not run.
-/

namespace Conch

namespace Script

/-- A redirection whose target is known. -/
inductive Target where
  | file (stream : Nat) (direction : Direction) (path : Raw)
  | join (stream : Nat) (source : Option Nat)
  | document (stream : Nat) (text : Word)

/-- The stream that a redirection sets. -/
def Target.stream : Target → Nat
  | .file stream _ _ | .join stream _ | .document stream _ => stream

/-- The other stream that a text names; nothing to close it. -/
def sourceOf (text : Raw) : ShellM (Option Nat) :=
  match text.toList with
  | ['-'] => return none
  | [d] => if d.isDigit then return some (d.toNat - 48) else trouble "Syntax error: Bad fd number"
  | _ => trouble "Syntax error: Bad fd number"

/-- Find out the target of a redirection. -/
def target (run : Substitute) : Redirect → ShellM Target
  | .file stream direction w => do return .file stream direction (← expandText run w)
  | .join stream source => return .join stream source
  | .joinTo stream w => do return .join stream (← sourceOf (← expandText run w))
  | .document stream number => do
    let text := ((← get).documents.find? (·.number = number)).map (·.text)
    return .document stream (text.getD [])

/-- What is told of a file that cannot be opened or made. -/
def openTrouble {α : Type} (isMade : Bool) (path : Raw) (e : Errno) : ShellM α :=
  let cause := match e with
    | .noEntry | .notDirectory => if isMade then "Directory nonexistent" else "No such file"
    | e => e.text
  trouble ("cannot " ++ (if isMade then "create " else "open ") ++ path ++ ": " ++ cause)

/-- Open a path. Paths that name a stream of the shell lead to that. -/
def openPath (path : Raw) (mode : FileSystem.Mode) : ShellM (Except Errno Channel) := do
  let s ← get
  let opened := fun (h : Handle) => match mode with
    | .read => { input := .file h : Channel }
    | .truncate | .append => { output := .file h }
    | .update => { input := .file h, output := .file h }
  match Act.streamNumber? path with
  | some n =>
    match s.streams.lookup n with
    | none => return .error .noEntry
    | some c =>
      match c.input, c.output with
      | .file h, _ | _, .file h => return (← call (.reopen h mode)).map opened
      | _, _ => return .ok c
  | none => return (← call (.openFile s.directory (Raw.decode path) mode)).map opened

/-- Open the file of a redirection. -/
def openTarget (direction : Direction) (path : Raw) : ShellM Channel := do
  let s ← get
  let mode : FileSystem.Mode := match direction with
    | .input => .read
    | .output | .overwrite => .truncate
    | .append => .append
    | .both => .update
  if direction = .output && s.isOn "noclobber" then
    match ← call (.stat s.directory (Raw.decode path) true) with
    | .ok (.file _) | .ok (.program _) => openTrouble true path .alreadyExists
    | _ => pure ()
  match ← openPath path mode with
  | .ok c => return c
  | .error e => openTrouble (direction ≠ .input) path e

/-- Set or close a stream, and take note of it. -/
def Shell.redirected (s : Shell) (n : Nat) (c : Option Channel) : Shell :=
  let others := s.closed.filter (· ≠ n)
  { s.withStream n c with closed := if c.isNone then n :: others else others }

/-- Set a stream as a redirection says. With `keeps`, it can be put back later: note is taken of what is
    closed, and a stream that was not touched before is put away before it is joined to another one, so
    that trouble cannot be told there. -/
def redirect (run : Substitute) (keeps : Bool) (touched : List Nat) (t : Target) : ShellM Unit := do
  let change (c : Option Channel) : ShellM Unit :=
    modify fun s => if keeps then s.redirected t.stream c else s.withStream t.stream c
  match t with
  | .file _ direction path =>
    let c ← openTarget direction path
    change (some c)
  | .join _ none => change none
  | .join stream (some source) =>
    if stream ≠ source then
      match (← get).streams.lookup source with
      | some c => change (some c)
      | none =>
        if keeps && !touched.contains stream then change none
        trouble (toString source ++ ": " ++ Errno.badDescriptor.text)
  | .document _ w =>
    let text ← expandDocument run w
    let n ← call .joint
    let _ ← call (.write (.joint n) (Raw.bytes text))
    change (some { input := .joint n })

/-- The stream that a redirection touches even if it goes wrong. -/
def Target.touched? : Target → Option Nat
  | .join stream (some source) => if stream = source then none else some stream
  | .join stream none => some stream
  | _ => none

/-- Set the streams for a command after some were touched. Gives the streams that were touched and whether
    all could be set. What was set before trouble stays. -/
def redirectAll (run : Substitute) : List Nat → List Target → ShellM (List Nat × Bool)
  | touched, [] => return (touched, true)
  | touched, t :: rest => do
    let isSet ← tryCatch (do
      redirect run true touched t
      return true) fun
      | .trouble => return false
      | stop => throw stop
    let now := match t with
      | .join _ _ => t.touched?.toList
      | t => if isSet then [t.stream] else []
    if isSet then redirectAll run (now ++ touched) rest else return (now ++ touched, false)

/-- Put streams back as they were before. -/
def restoreStreams (before : Shell) (touched : List Nat) : ShellM Unit :=
  modify fun s => touched.foldl (fun s n =>
    s.redirected n (if before.closed.contains n then none else before.streams.lookup n)) s

/-- Whether a source is the end of a pipe. -/
def isPipeEnd : Source → Bool
  | .pipe | .joint _ => true
  | _ => false

/-- Hang up the pipes that were read from before and are no more. -/
def hangUpUnused (before : List (Nat × Channel)) : ShellM Unit := do
  let now := (← get).streams.map (·.2.input)
  let gone := (before.map (·.2.input)).filter fun source => isPipeEnd source && !now.contains source
  gone.eraseDups.forM fun source => call (.hangUp source)

end Script

end Conch
