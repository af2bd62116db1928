-- SUMMARY: Programs: what they are started with, how they end, and how a file comes to run as one.
import Conch.Raw
import Conch.System.Job

/-!
# Programs

A program is started with arguments, a directory, variables and three streams,
and ends with a code or by a signal. Which programs are installed is a parameter
of everything that starts them.

Running a file means running the program it is, or, for a script, the
interpreter named on its first line, with the script as an argument. A file that
is neither is refused.
-/

namespace Conch

/-! ## Programs -/

/-- How a process ends. -/
inductive Ending where
  | exited (code : Nat)
  | killed (signal : Nat)
  deriving DecidableEq, Repr

/-- The code under which a process is reported: death by a signal is negative. -/
def Ending.returnCode : Ending → Int
  | .exited code => code
  | .killed signal => -(signal : Int)

/-- The exit status for a reported code. Death by a signal counts from 128 on. -/
def exitStatus (returnCode : Int) : Int :=
  if returnCode < 0 then 128 - returnCode else returnCode

/-- The exit status of a process. -/
def Ending.status (e : Ending) : Nat :=
  (exitStatus e.returnCode).toNat

/-- An open stream of a process, seen from both sides. -/
structure Channel where
  input : Source := .closed
  output : Sink := .closed
  deriving DecidableEq, Repr

/-- What a program is started with. -/
structure Invocation where
  /-- The name under which it was started. -/
  name : Raw
  args : List Raw
  directory : Ino
  environment : List (Raw × Raw)
  stdin : Source
  stdout : Sink
  stderr : Sink
  /-- Streams besides the three, by number. -/
  others : List (Nat × Channel) := []
  /-- The signals that are ignored from the start. -/
  ignored : List Nat := []

/-- The installed programs, by name. -/
abbrev Programs := String → Option (Invocation → Job Ending)

/-! ## Running files -/

/-- The length in bytes from which on an argument is refused. -/
def argumentLimit : Nat := 131072

/-- The room in bytes that all arguments and variables share. -/
def argumentsLimit : Nat := 2097152

/-- How many interpreters may stand behind each other. -/
def maxInterpreters : Nat := 5

/-- Whether some arguments are too long to start a program with. -/
def tooLong (args : List Raw) : Bool :=
  args.any (fun arg => argumentLimit ≤ arg.length) ||
    argumentsLimit < args.foldl (fun sum arg => sum + arg.length + 9) 0

/-- What a script's first line names. -/
structure ScriptLine where
  interpreter : Raw
  argument : Option Raw
  deriving DecidableEq, Repr

/-- A space or a tab. -/
def isGap (b : UInt8) : Bool := b = 32 || b = 9

/-- How much of a script is looked at for its first line. -/
def scriptHead : Nat := 256

/-- Read the first line of a script: `#!`, an interpreter, and at most one argument. An interpreter
    that runs past the part that is looked at does not count. -/
def scriptLine? (content : Bytes) : Option ScriptLine :=
  match content.take scriptHead with
  | 35 :: 33 :: rest =>
    let ends := fun b => isGap b || b = 0
    let line := rest.takeWhile (· ≠ 10)
    let words := ((line.dropWhile isGap).reverse.dropWhile isGap).reverse
    let interpreter := words.takeWhile fun b => !ends b
    let argument := ((words.drop interpreter.length).dropWhile isGap).takeWhile (· ≠ 0)
    let isCut := rest.length = line.length && scriptHead ≤ content.length && argument.isEmpty &&
      words.length = interpreter.length
    if interpreter.isEmpty || isCut then none
    else some ⟨.ofBytes interpreter, if argument.isEmpty then none else some (.ofBytes argument)⟩
  | _ => none

/-- What running a file comes to: a program, and the arguments before the given ones. -/
structure Image where
  program : String
  /-- The interpreter's name, if one stands before the file. -/
  interpreter : Option Raw
  leading : List Raw

/-- Find out what running a file comes to, seen from a directory. The number tells how many
    interpreters may still stand behind each other. -/
def loadImage (base : Ino) : Nat → Raw → Job (Except Errno Image)
  | depth, path => do
    match ← Job.call (.stat base (Raw.decode path) true) with
    | .error e => return .error e
    | .ok (.program program) => return .ok ⟨program, none, []⟩
    | .ok (.file true) =>
      match ← Job.call (.fetch base (Raw.decode path)) with
      | .error e => return .error e
      | .ok content =>
        match scriptLine? content with
        | none => return .error .execFormat
        | some line =>
          match depth with
          | 0 =>
            match ← Job.call (.stat base (Raw.decode line.interpreter) true) with
            | .error e => return .error e
            | .ok kind => return .error (if kind.isRunnable then .linkLoop else .accessDenied)
          | depth + 1 =>
            match ← loadImage base depth line.interpreter with
            | .error e => return .error e
            | .ok image =>
              return .ok
                { program := image.program
                  interpreter := some (image.interpreter.getD line.interpreter)
                  leading := image.leading ++ line.argument.toList ++ [path] }
    | .ok _ => return .error .accessDenied

/-- Start a file as a process: the job that the process is, or the cause for which it is refused.
    The name of the invocation is kept unless an interpreter takes over. -/
def startFile (programs : Programs) (path : Raw) (call : Invocation) :
    Job (Except Errno (Job Ending)) := do
  if tooLong (path :: call.args) then return .error .argumentsTooLong
  match ← loadImage call.directory maxInterpreters path with
  | .error e => return .error e
  | .ok image =>
    match programs image.program with
    | none => return .error .execFormat
    | some start =>
      return .ok (start
        { call with name := image.interpreter.getD call.name, args := image.leading ++ call.args })

end Conch
