-- SUMMARY: The segments of a line, parted by the pipes that no quote or escape protects.
import Conch.Quoting

/-!
# Segments of a line

A pipe character outside quotes and not escaped parts two stages. The segments
keep their quotes and escapes, so that joining them with pipes gives the line
back.
-/

namespace Conch

/-- The character that parts two stages. -/
def pipeChar : Char := '|'

/-- The segments of the rest of a line, from a given place on. `segment` holds the
    characters of the segment being read, the latest first. -/
def segmentsFrom (q : Quoting) (segment : List Char) : List Char → List String
  | [] => [String.ofList segment.reverse]
  | c :: cs =>
    if q.meaning c = .bare && c = pipeChar then
      String.ofList segment.reverse :: segmentsFrom (q.next c) [] cs
    else
      segmentsFrom (q.next c) (c :: segment) cs

/-- The segments of a line between its active pipes; there is always one. -/
def segments (line : String) : List String :=
  segmentsFrom .plain [] line.toList

end Conch
