-- SUMMARY: Running a single stage to its end.
import Conch.Launch

/-!
# Running one stage

A stage that is not part of a pipeline runs to its end before anything else
happens. A built-in command acts on the session itself: `cd` moves it and `exit`
asks for its end.
-/

namespace Conch

/-- What running a command comes to. -/
inductive Outcome where
  | status (code : Nat)
  /-- The session is asked to end with a code. -/
  | exit (code : Nat)
  /-- A fault that could not be told as a diagnostic. -/
  | failed (fault : Fault)
  deriving DecidableEq, Repr

/-- The outcome of a built-in command. -/
def BuiltinEnd.outcome : BuiltinEnd → Outcome
  | .status code => .status code
  | .exitRequest code => .exit code

namespace Stage

/-- Do what a stage is for, with its streams at hand. -/
def act (programs : Programs) (ctx : Context) (s : Stage) : Resolution → StageM (Outcome × Context)
  | .builtin b => do
    let (ending, ctx) ← b.run s.args ctx
    return (ending.outcome, ctx)
  | .notFound => do
    Streams.error (Launch.notFoundLine s)
    return (.status Launch.notFound, ctx)
  | .external path => do
    match ← Launch.launch programs ctx s path .empty .out with
    | .error e =>
      Streams.error e.message
      return (.status e.status, ctx)
    | .ok job =>
      let ending ← liftM job
      return (.status ending.status, ctx)

/-- Run a stage to its end, and give the context after it. -/
def run (programs : Programs) (ctx : Context) (s : Stage) : Job (Outcome × Context) := do
  let resolution ← Lookup.find ctx s.executable
  match ← (s.act programs ctx resolution).closing (.ofStage s ctx.directory false) with
  | .ok result => return result
  | .error fault => return (.failed fault, ctx)

end Stage

end Conch
