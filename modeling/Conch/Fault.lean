-- SUMMARY: What can go wrong while a stage is served, and how it is told.
import Conch.Text.Quoted
import Conch.System.Errno

/-!
# Faults

A fault is a failure that a stage meets while it opens, reads or writes. Most of
them end as a diagnostic of the stage; the few that strike while a diagnostic is
being written come out of the interpreter and are told in full.
-/

namespace Conch

/-- A failure while a stage is served. -/
inductive Fault where
  /-- The system refused a request, about a certain path or none. -/
  | system (cause : Errno) (path : Option String)
  /-- A name or an argument holds the NUL character. -/
  | nul
  /-- The stream that should be read was closed before. -/
  | readClosed
  /-- The stream that should be written was closed before. -/
  | writeClosed
  /-- A negative number of bytes was asked for. -/
  | readLength
  deriving DecidableEq, Repr

namespace Fault

/-- The reason alone, as diagnostics give it. -/
def reason : Fault → String
  | system cause _ => cause.text
  | nul => "embedded null byte"
  | readClosed => "read of closed file"
  | writeClosed => "write to closed file"
  | readLength => "read length must be non-negative or -1"

/-- The fault in full. -/
def message : Fault → String
  | system cause none => s!"[Errno {cause.number}] {cause.text}"
  | system cause (some path) => s!"[Errno {cause.number}] {cause.text}: " ++ quoted path
  | other => other.reason

/-- A diagnostic about something: what it is about, and the reason. -/
def about (subject : String) (f : Fault) : String :=
  s!"{subject}: {f.reason}"

end Fault

end Conch
