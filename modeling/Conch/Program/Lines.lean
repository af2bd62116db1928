-- SUMMARY: Lines of bytes.
import Conch.Bytes

/-!
# Lines of bytes

A text file is a sequence of lines, each ended by a line feed. What follows the
last line feed is a line without an end. Some programs can end lines by a zero
instead, so the ending byte is a parameter.
-/

namespace Conch

namespace Lines

/-- The byte that ends lines by default. -/
def feed : UInt8 := 10

/-- The pieces of some bytes between ends. There is always at least one. -/
def pieces (eol : UInt8) (data : Bytes) : List Bytes :=
  data.foldr (fun b pieces =>
    if b = eol then [] :: pieces
    else
      match pieces with
      | [] => [[b]]
      | piece :: rest => (b :: piece) :: rest) [[]]

/-- The lines that have an end, without it, and what follows them. -/
def split (eol : UInt8) (data : Bytes) : List Bytes × Bytes :=
  let pieces := pieces eol data
  (pieces.dropLast, pieces.getLastD [])

/-- All lines; one without an end counts if it is not empty. -/
def all (eol : UInt8) (data : Bytes) : List Bytes :=
  let (lines, rest) := split eol data
  if rest.isEmpty then lines else lines ++ [rest]

/-- Lines with their ends. -/
def join (eol : UInt8) (lines : List Bytes) : Bytes := lines.flatMap fun line => line ++ [eol]

/-- The first so many lines with their ends, and what follows them. The number tells how many
    lines are still wanted if the bytes do not hold enough. -/
def takeLines (eol : UInt8) : Nat → Bytes → List UInt8 → Bytes × Bytes × Nat
  | 0, data, taken => (taken.reverse, data, 0)
  | n, [], taken => (taken.reverse, [], n)
  | n + 1, b :: data, taken =>
    if b = eol then takeLines eol n data (b :: taken) else takeLines eol (n + 1) data (b :: taken)

end Lines

end Conch
