-- SUMMARY: The words of a line, with quotes and escapes taken away.
import Conch.Quoting
import Conch.Text.Blank

/-!
# Words of a line

Blanks outside quotes part a line into words. Quoted and bare pieces without a
blank between them join into one word, and a word that comes out empty is
dropped. A line must not end inside quotes or right after a backslash.
-/

namespace Conch

/-- The two kinds of quote. -/
inductive Quote where
  | single
  | double
  deriving DecidableEq, Repr

/-- The name of a quote in a message. -/
def Quote.name : Quote → String
  | .single => "single"
  | .double => "double"

/-- Why a line has no words. -/
inductive LexError where
  /-- The line ends inside a quotation. -/
  | unterminated (quote : Quote)
  /-- The line ends right after a backslash that escapes. -/
  | trailingEscape
  deriving DecidableEq, Repr

/-- The message for a line that has no words. -/
def LexError.message : LexError → String
  | .unterminated quote => s!"unterminated {quote.name} quote"
  | .trailingEscape => "trailing backslash with nothing to escape"

/-- What is wrong with a line that ends at the given place. -/
def Quoting.ending : Quoting → Option LexError
  | .plain => none
  | .escape => some .trailingEscape
  | .doubleEscape => some .trailingEscape
  | .single => some (.unterminated .single)
  | .double => some (.unterminated .double)

/-- A finished word, given in reverse, before the words that follow it. -/
def closeWord (word : List Char) (rest : List String) : List String :=
  if word.isEmpty then rest else String.ofList word.reverse :: rest

/-- The words of the rest of a line, from a given place on. `word` holds the
    characters of the word being read, the latest first. -/
def wordsFrom (q : Quoting) (word : List Char) : List Char → Except LexError (List String)
  | [] =>
    match q.ending with
    | some e => .error e
    | none => .ok (closeWord word [])
  | c :: cs =>
    match q.meaning c with
    | .literal => wordsFrom (q.next c) (c :: word) cs
    | .mark => wordsFrom (q.next c) word cs
    | .bare =>
      if isBlank c then (wordsFrom (q.next c) [] cs).map (closeWord word)
      else wordsFrom (q.next c) (c :: word) cs

/-- The words of a line. -/
def tokenize (line : String) : Except LexError (List String) :=
  wordsFrom .plain [] line.toList

end Conch
