-- SUMMARY: Filters: programs that turn a stream of bytes into another.
import Conch.Program.Act
import Conch.Program.Lines
import Conch.Program.Quote

/-!
# Filters

A filter takes its input chunk by chunk, gives output for each chunk, and may
refuse more at any time. Most filters work line by line; `ofLines` keeps the part
of a line that has not ended yet.
-/

namespace Conch

/-- A transformation of a stream of bytes. -/
structure Filter where
  State : Type
  start : State
  /-- What a chunk gives: output, and whether more is wanted. -/
  feed : State → Bytes → State × Bytes × Bool
  /-- What the end of the input gives. -/
  finish : State → Bytes

namespace Filter

/-- Feed lines one by one until no more are wanted; `Bool` says whether a line has an end. -/
def feedLines {σ : Type} (step : σ → Bytes → Bool → σ × Bytes × Bool) (s : σ) (lines : List Bytes) :
    σ × List Bytes × Bool :=
  lines.foldl (fun (s, out, more) line =>
    if more then
      let (s, data, more) := step s line true
      (s, data :: out, more)
    else (s, out, more)) (s, [], true)

/-- A filter that works line by line. -/
def ofLines {σ : Type} (eol : UInt8) (start : σ) (step : σ → Bytes → Bool → σ × Bytes × Bool)
    (finish : σ → Bytes) : Filter where
  State := σ × Bytes
  start := (start, [])
  feed := fun (s, pending) data =>
    let (lines, rest) := Lines.split eol (pending ++ data)
    let (s, out, more) := feedLines step s lines
    ((s, if more then rest else []), out.reverse.flatten, more)
  finish := fun (s, pending) =>
    if pending.isEmpty then finish s
    else
      let (s, out, _) := step s pending false
      out ++ finish s

/-- Feed a source until it ends or no more is wanted. -/
def pump (f : Filter) (source : Source) : Nat → f.State → Act (Except Errno Unit × f.State)
  | 0, s => return (.ok (), s)
  | fuel + 1, s => do
    match ← Act.call (.read source Act.readSize) with
    | .error e => return (.error e, s)
    | .ok data =>
      if data.isEmpty then return (.ok (), s)
      else
        let (s, out, more) := f.feed s data
        Act.put out
        if more then pump f source fuel s else return (.ok (), s)

/-- Run a filter on one source. -/
def runOn (f : Filter) (source : Source) : Act (Except Errno Unit) := do
  let (result, s) ← f.pump source manyRounds f.start
  Act.put (f.finish s)
  return result

end Filter

/-- The plainest diagnostic about an input: its name and the cause. -/
def plainFailure (operand : Raw) (e : Errno) : Raw :=
  Quote.ifNeeded operand ++ ": " ++ e.text

end Conch
