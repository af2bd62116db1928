-- SUMMARY: Where a scan of a line stands with respect to quotes and escapes.

/-!
# Quoting

A line is read from left to right. A backslash takes the next character as it
is, single quotes take everything up to the next single quote as it is, and
double quotes do the same but let backslashes work. `Quoting` is what a scan has
to remember to read the next character rightly. Finding words and finding the
pipes between stages both rest on it.
-/

namespace Conch

/-- Where a scan stands: outside quotes, inside one of the two kinds, or right
    after a backslash outside or inside double quotes. -/
inductive Quoting where
  | plain
  | escape
  | single
  | double
  | doubleEscape
  deriving DecidableEq, Repr

/-- What a character means at a given place. -/
inductive Meaning where
  /-- The character belongs to a word. -/
  | literal
  /-- The character only opens, closes or escapes. -/
  | mark
  /-- The character may part: it is outside quotes and not escaped. -/
  | bare
  deriving DecidableEq, Repr

namespace Quoting

/-- Where the scan stands after one more character. -/
def next : Quoting → Char → Quoting
  | plain, c => if c = '\\' then escape else if c = '\'' then single else if c = '"' then double else plain
  | escape, _ => plain
  | single, c => if c = '\'' then plain else single
  | double, c => if c = '\\' then doubleEscape else if c = '"' then plain else double
  | doubleEscape, _ => double

/-- What a character means at this place. -/
def meaning : Quoting → Char → Meaning
  | plain, c => if c = '\\' || c = '\'' || c = '"' then .mark else .bare
  | escape, _ => .literal
  | single, c => if c = '\'' then .mark else .literal
  | double, c => if c = '\\' || c = '"' then .mark else .literal
  | doubleEscape, _ => .literal

/-- Where the scan stands after a whole line that it began at `q`. -/
def after (q : Quoting) (cs : List Char) : Quoting :=
  cs.foldl next q

@[simp] theorem after_nil (q : Quoting) : q.after [] = q := rfl

@[simp] theorem after_cons (q : Quoting) (c : Char) (cs : List Char) :
    q.after (c :: cs) = (q.next c).after cs := rfl

theorem after_append (q : Quoting) (cs ds : List Char) :
    q.after (cs ++ ds) = (q.after cs).after ds :=
  List.foldl_append

end Quoting

end Conch
