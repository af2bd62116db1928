-- SUMMARY: Scripts as trees: words with their parts, redirections and commands.
import Conch.Raw

/-!
# Trees of scripts

A script is a list of commands. A command is a list of words with redirections, or
it is put together from others. A word is a list of pieces: text, quoted text, and
places where something is put in while the script runs.

Commands may stand in words, so words and commands are defined together.
-/

namespace Conch

namespace Script

/-- What is done with the value of a parameter. -/
inductive Operation where
  /-- The value as it is. -/
  | plain
  | length
  /-- A word in its place if there is no value. -/
  | default
  /-- The same, and the parameter is set to it. -/
  | assign
  /-- A word tells what is wrong if there is no value. -/
  | demand
  /-- A word in its place if there is a value. -/
  | alternative
  /-- The value without the part at its start that a pattern matches. -/
  | dropStart (longest : Bool)
  /-- The value without the part at its end that a pattern matches. -/
  | dropEnd (longest : Bool)
  /-- No sense can be made of it. -/
  | senseless
  deriving DecidableEq, Repr

/-- How a file is opened for a stream. -/
inductive Direction where
  | input
  | output
  /-- For output, whatever is there. -/
  | overwrite
  | append
  | both
  deriving DecidableEq, Repr

mutual

/-- A piece of a word. -/
inductive Piece where
  /-- Text without quotes. -/
  | bare (text : Raw)
  /-- Text in which no character means anything else. -/
  | literal (text : Raw)
  /-- Text in single quotes. -/
  | single (text : Raw)
  /-- Pieces in double quotes. -/
  | double (pieces : List Piece)
  /-- A parameter. With `orEmpty`, an empty value counts as none. -/
  | parameter (name : Raw) (operation : Operation) (orEmpty : Bool) (word : List Piece)
  /-- The output of a command. -/
  | command (body : Option Tree)
  /-- The value of an expression. -/
  | arithmetic (expression : List Piece)

/-- A redirection of a stream. -/
inductive Redirect where
  | file (stream : Nat) (direction : Direction) (target : List Piece)
  /-- Join a stream to another one, or close it. -/
  | join (stream : Nat) (source : Option Nat)
  /-- The same with a word for the other stream. -/
  | joinTo (stream : Nat) (source : List Piece)
  /-- The text of a document that follows in the script, by its number. -/
  | document (stream : Nat) (number : Nat)

/-- A command. -/
inductive Tree where
  | simple (line : Nat) (assigned : List (Raw × List Piece)) (words : List (List Piece))
      (redirects : List Redirect)
  | redirected (line : Nat) (body : Tree) (redirects : List Redirect)
  | pipeline (stages : List Tree) (inBackground : Bool)
  | subshell (line : Nat) (body : Tree) (redirects : List Redirect)
  | background (body : Tree) (redirects : List Redirect)
  | sequence (first second : Tree)
  | andThen (first second : Tree)
  | orElse (first second : Tree)
  | negated (body : Tree)
  | choice (test body : Tree) (otherwise : Option Tree)
  | repeated (isUntil : Bool) (test : Tree) (body : Tree)
  | forEach (line : Nat) (name : Raw) (words : List (List Piece)) (body : Tree)
  | select (line : Nat) (subject : List Piece) (cases : List (List (List Piece) × Option Tree))
  | define (name : Raw) (line : Nat) (body : Tree)

end

/-- A word. -/
abbrev Word := List Piece

instance : Inhabited Tree := ⟨.pipeline [] false⟩

/-- A document in a script: its text as a word. -/
structure Document where
  number : Nat
  text : Word

end Script

end Conch
