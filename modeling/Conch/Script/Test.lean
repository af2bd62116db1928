-- SUMMARY: The built-in command test, which tells whether something is true of texts, numbers and files.
import Conch.Script.Shell

/-!
# Tests

A test is written with words: an operator before or between operands, a text alone,
and all of these joined by `!`, `-a`, `-o` and brackets. With three or four words
the place of a word decides what it is.
-/

namespace Conch

namespace Script

namespace Test

/-- What an operator stands between or before. -/
inductive Kind where
  | unary
  | binary
  | not
  | and
  | or
  | openParen
  | closeParen
  deriving DecidableEq, Repr

/-- What a word is as an operator. -/
def kind? (word : Raw) : Option Kind :=
  if ["-r", "-w", "-x", "-e", "-f", "-d", "-c", "-b", "-p", "-u", "-g", "-k", "-s", "-t", "-z", "-n", "-h", "-O",
      "-G", "-L", "-S"].contains word then some .unary
  else if ["=", "!=", "<", ">", "-eq", "-ne", "-ge", "-gt", "-le", "-lt", "-nt", "-ot", "-ef"].contains word then
    some .binary
  else
    match word with
    | "!" => some .not
    | "-a" => some .and
    | "-o" => some .or
    | "(" => some .openParen
    | ")" => some .closeParen
    | _ => none

/-- What the first of some words is, seen with those after it. -/
def kindAt (words : List Raw) : Option Kind :=
  match words with
  | [] => none
  | word :: rest =>
    match kind? word with
    | some .unary =>
      match rest with
      | [] => none
      | [_] => some .unary
      | next :: _ => if kind? next = some .binary then none else some .unary
    | some .openParen => if rest.isEmpty then none else some .openParen
    | kind => kind

/-- A part of the work on a test; its state are the words from the current one on. -/
abbrev Testing := StateT (List Raw) ShellM

/-- Tell what is wrong with a test. -/
def wrong {α : Type} (operator message : Raw) : Testing α :=
  (trouble (if operator.isEmpty then message else operator ++ ": " ++ message) : ShellM α)

/-- What is known about a file. -/
def info? (path : Raw) (followLast : Bool) : ShellM (Option FileInfo) := do
  match ← call (.info (← get).directory (Raw.decode path) followLast) with
  | .ok info => return some info
  | .error _ => return none

/-- Whether something is true of one operand. -/
def unary (operator operand : Raw) : ShellM Bool := do
  match operator with
  | "-z" => return operand.isEmpty
  | "-n" => return !operand.isEmpty
  | "-t" =>
    let _ ← decimal operand
    return false
  | _ =>
    match ← info? operand (operator ≠ "-h" && operator ≠ "-L") with
    | none => return false
    | some info =>
      match operator with
      | "-e" | "-r" | "-w" | "-O" | "-G" => return true
      | "-x" => return info.kind.isRunnable || info.kind = .dir
      | "-f" =>
        match info.kind with
        | .file _ | .program _ => return true
        | _ => return false
      | "-d" => return info.kind = .dir
      | "-c" => return info.kind = .device
      | "-h" | "-L" => return info.kind = .link
      | "-s" => return info.size ≠ 0
      | _ => return false

/-- Whether something is true of two operands. -/
def binary (first operator second : Raw) : ShellM Bool := do
  let compare := fun (test : Int → Int → Bool) => do
    let a ← decimal first
    let b ← decimal second
    return test a b
  match operator with
  | "=" => return first = second
  | "!=" => return first ≠ second
  | "<" => return first.toList < second.toList
  | ">" => return second.toList < first.toList
  | "-eq" => compare (· = ·)
  | "-ne" => compare (· ≠ ·)
  | "-ge" => compare (· ≥ ·)
  | "-gt" => compare (· > ·)
  | "-le" => compare (· ≤ ·)
  | "-lt" => compare (· < ·)
  | "-ef" =>
    match ← info? first true, ← info? second true with
    | some a, some b => return a.node = b.node
    | _, _ => return false
  | _ => return false

/-- Go on by some words. -/
def skip (n : Nat) : Testing Unit := modify (List.drop n)

mutual

/-- Parts of which one is enough. The kind of the current word is given. -/
def either : Nat → Option Kind → Testing Bool
  | 0, _ => return false
  | fuel + 1, kind => do
    let a ← both fuel kind
    if kindAt ((← get).drop 1) = some .or then
      skip 2
      let b ← either fuel (kindAt (← get))
      return a || b
    else return a

/-- Parts of which all are needed. -/
def both : Nat → Option Kind → Testing Bool
  | 0, _ => return false
  | fuel + 1, kind => do
    let a ← negation fuel kind
    if kindAt ((← get).drop 1) = some .and then
      skip 2
      let b ← both fuel (kindAt (← get))
      return a && b
    else return a

/-- A part that may be turned round. -/
def negation : Nat → Option Kind → Testing Bool
  | 0, _ => return false
  | fuel + 1, kind => do
    if kind = some .not then
      let kind := kindAt ((← get).drop 1)
      if 1 < (← get).length then
        skip 1
        return !(← negation fuel kind)
      else return true
    else primary fuel kind

/-- A part by itself. -/
def primary : Nat → Option Kind → Testing Bool
  | 0, _ => return false
  | fuel + 1, kind => do
    match ← get with
    | [] => return false
    | word :: rest =>
      match kind with
      | some .openParen =>
        skip 1
        let kind := kindAt rest
        if kind = some .closeParen then return false
        let a ← either fuel kind
        skip 1
        if kindAt (← get) ≠ some .closeParen then wrong "" "closing paren expected"
        return a
      | some .unary =>
        match rest with
        | [] => wrong word "argument expected"
        | operand :: _ =>
          skip 1
          (unary word operand : ShellM Bool)
      | _ =>
        if kindAt rest = some .binary then
          match rest with
          | operator :: operand :: _ =>
            skip 2
            (binary word operator operand : ShellM Bool)
          | _ => wrong (rest.headD "") "argument expected"
        else return !word.isEmpty

end

/-- Work out a test from its first word on, if that is not an operator. -/
def evaluate (kind : Option Kind) (words : List Raw) : ShellM Bool := do
  let (result, rest) ← (either manyRounds kind).run words
  match rest with
  | word :: _ :: _ =>
    let _ ← (wrong word "unexpected operator" : Testing Unit).run []
    return result
  | _ => return result

/-- Work out a test by the number of its words. -/
def decide : Nat → List Raw → ShellM Bool
  | 0, _ | _, [] => return false
  | fuel + 1, words => do
    let isThree := words.length = 3
    if isThree && (words[1]?.bind kind?) = some .binary then evaluate none words
    else if (isThree || words.length = 4) && words.head? = some "(" && words.getLast? = some ")" then
      let inside := (words.drop 1).dropLast
      evaluate (kindAt inside) inside
    else if (isThree || words.length = 4) && words.head? = some "!" then
      return !(← decide fuel (words.drop 1))
    else evaluate (kindAt words) words

/-- Run the command by its name and arguments. -/
def test (name : Raw) (args : List Raw) : ShellM Nat := do
  let words ← if name = "[" then
      if (args.getLastD "").startsWith "]" then pure args.dropLast else trouble "missing ]"
    else pure args
  return if ← decide (words.length + 1) words then 0 else 1

end Test

end Script

end Conch
