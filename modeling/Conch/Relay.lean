-- SUMMARY: Relays: copying a stream to another, chunk by chunk, until one of them ends.
import Conch.Bytes

/-!
# Relays

A relay joins the output of one stage to the input of the next. It copies chunks
in order until the source ends or the destination refuses one, and then closes
both ends, whichever of them exist.
-/

namespace Conch.Relay

/-- The largest chunk that a relay reads at once. -/
def chunkSize : Nat := 65536

/-- The end that a relay reads from. -/
structure Source where
  /-- The chunks that reading will give, in order. -/
  pending : List Bytes
  closed : Bool := false

/-- The end that a relay writes to. It takes a chunk whole or not at all. -/
structure Destination where
  /-- Whether a chunk is taken, given what is held already. -/
  accepts : Bytes → Bytes → Bool
  held : Bytes := []
  /-- How often the end has been closed. -/
  closes : Nat := 0

/-- Cut bytes into chunks of at most `size + 1` bytes, the last one possibly shorter.
    `fuel` bounds the number of chunks. -/
def chunksOf (size : Nat) : Nat → Bytes → List Bytes
  | 0, _ => []
  | _ + 1, [] => []
  | fuel + 1, bytes => bytes.take (size + 1) :: chunksOf size fuel (bytes.drop (size + 1))

/-- The chunks in which a source hands out its bytes when nothing holds it up. -/
def chunks (bytes : Bytes) : List Bytes :=
  chunksOf (chunkSize - 1) bytes.length bytes

/-- Copy chunks in order until there are no more or one is refused. Gives the number of bytes
    copied, what is left to read, and the destination. -/
def copyChunks (copied : Nat) : List Bytes → Destination → Nat × List Bytes × Destination
  | [], d => (copied, [], d)
  | chunk :: rest, d =>
    if d.accepts d.held chunk then
      copyChunks (copied + chunk.length) rest { d with held := d.held ++ chunk }
    else (copied, rest, d)

/-- Close the end that a relay reads from. -/
def Source.close (s : Source) : Source := { s with closed := true }

/-- Close the end that a relay writes to. -/
def Destination.close (d : Destination) : Destination := { d with closes := d.closes + 1 }

/-- Run a relay, and give the number of bytes copied and the two ends. With an end missing
    nothing is copied; the other is closed all the same. -/
def run : Option Source → Option Destination → Nat × Option Source × Option Destination
  | some s, some d =>
    let (copied, rest, d) := copyChunks 0 s.pending d
    (copied, some { s with pending := rest }.close, some d.close)
  | s, d => (0, s.map Source.close, d.map Destination.close)

/-- Whether a chunk keeps a destination within a number of bytes. -/
def withinLimit (limit : Nat) (held chunk : Bytes) : Bool :=
  held.length + chunk.length ≤ limit

end Conch.Relay
