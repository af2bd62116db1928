-- SUMMARY: Commands that edit lines: which lines they apply to and what they do.
import Conch.Pattern

/-!
# Editing commands

A command applies to all lines, to those that an address chooses, or to ranges of
lines. Commands stand in a list; blocks and jumps refer to places in it.
-/

namespace Conch

namespace Edit

/-- A pattern with the way in which it is applied. -/
structure Expression where
  pattern : Pattern
  /-- Lines start and end within the text. -/
  hasLines : Bool := false
  deriving Repr, Inhabited

/-- A way to choose lines. -/
inductive Address where
  | number (n : Nat)
  /-- Every line from one on, by steps. -/
  | every (first step : Nat)
  | lastLine
  /-- Lines with a match; nothing stands for the expression that was used last. -/
  | matching (e : Option Expression)
  /-- So many lines after the first of the range. -/
  | plus (n : Nat)
  /-- Up to the next multiple of a number. -/
  | multiple (n : Nat)
  deriving Repr, Inhabited

/-- How case is changed in what takes the place of a match. -/
inductive CaseChange where
  | upper
  | lower
  | asIs
  | upperNext
  | lowerNext
  deriving DecidableEq, Repr

/-- A part of the text that takes the place of a match. -/
inductive Part where
  | bytes (bs : Bytes)
  /-- What a group matched; group 0 is the whole match. -/
  | group (i : Nat)
  | case (c : CaseChange)
  deriving DecidableEq, Repr

/-- Where a command writes to. -/
inductive Target where
  | stdout
  | stderr
  /-- One of the files that the script names. -/
  | file (i : Nat)
  deriving DecidableEq, Repr

/-- A substitution. -/
structure Substitution where
  /-- Nothing stands for the expression that was used last. -/
  expression : Option Expression
  parts : List Part
  /-- The first match that is replaced. -/
  nth : Nat := 1
  all : Bool := false
  print : Bool := false
  target : Option Target := none
  deriving Repr

/-- When a jump is made. -/
inductive Jump where
  | always
  | replaced
  | notReplaced
  deriving DecidableEq, Repr

/-- What a command does. -/
inductive Action where
  /-- The start of a block, with the place behind it. -/
  | block (after : Nat)
  | nothing
  | append (text : Bytes)
  | insert (text : Bytes)
  | change (text : Bytes)
  | jump (when : Jump) (target : Nat)
  | delete
  | deleteFirst
  | fileName
  | get
  | getAppend
  | hold
  | holdAppend
  | list (width : Option Nat)
  | lineNumber
  | next
  | nextAppend
  | print
  | printFirst
  | quit (code : Nat)
  | quitSilently (code : Nat)
  | readFile (path : String)
  | readLine (path : String)
  | substitute (s : Substitution)
  | write (t : Target)
  | writeFirst (t : Target)
  | exchange
  | transliterate (table : List (UInt8 × UInt8))
  | zap
  deriving Repr, Inhabited

/-- A command. -/
structure Command where
  first : Option Address := none
  second : Option Address := none
  negated : Bool := false
  action : Action := .nothing
  deriving Repr, Inhabited

/-- A script: its commands, and the files that they write to. -/
structure Script where
  commands : Array Command := #[]
  files : List String := []
  /-- Lines are not written unless asked for. -/
  silent : Bool := false

end Edit

end Conch
