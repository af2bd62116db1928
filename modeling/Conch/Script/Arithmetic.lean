-- SUMMARY: Expressions with whole numbers in scripts.
import Conch.Script.Shell

/-!
# Arithmetic

An expression has numbers of 64 bits, names of variables and operators. It is worked
out while it is read. A part that does not count, because of a condition before it,
is read without changing anything.
-/

namespace Conch

namespace Script

namespace Arithmetic

/-- What an expression is written with. -/
inductive Lexeme where
  | number (n : Int)
  | name (text : Raw)
  | sign (text : Raw)
  deriving DecidableEq, Repr

/-- The signs, longer ones first. -/
def signs : List Raw :=
  ["<<=", ">>=", "&&", "||", "==", "!=", "<=", ">=", "<<", ">>", "*=", "/=", "%=", "+=", "-=", "&=", "^=", "|=",
    "=", "<", ">", "!", "~", "*", "/", "%", "+", "-", "&", "^", "|", "?", ":", "(", ")"]

/-- Bring a number into 64 bits. -/
def wrap (n : Int) : Int := Int.bmod n 18446744073709551616

/-- The lexemes of an expression. What cannot stand in one is a sign of its own. `fuel` bounds
    them. -/
def lexemes : Nat → List Char → List Lexeme
  | 0, _ | _, [] => []
  | fuel + 1, c :: cs =>
    if c = ' ' || c = '\t' || c = '\n' then lexemes fuel cs
    else if c.isDigit then
      match Number.anyBase? (c :: cs) with
      | some (n, rest) => .number (Number.clampSigned n) :: lexemes fuel rest
      | none => []
    else if isNameStart c then
      let name := (c :: cs).takeWhile isNameChar
      .name (String.ofList name) :: lexemes fuel ((c :: cs).drop name.length)
    else
      match signs.find? fun s => s.toList.isPrefixOf (c :: cs) with
      | some s => .sign s :: lexemes fuel ((c :: cs).drop s.length)
      | none => .sign (String.ofList [c]) :: lexemes fuel cs

/-- How tightly an operator between two values binds: a smaller number binds more. -/
def rank? : Lexeme → Option Nat
  | .sign "*" | .sign "/" | .sign "%" => some 0
  | .sign "+" | .sign "-" => some 1
  | .sign "<<" | .sign ">>" => some 2
  | .sign "<" | .sign "<=" | .sign ">" | .sign ">=" => some 3
  | .sign "==" | .sign "!=" => some 4
  | .sign "&" => some 5
  | .sign "^" => some 6
  | .sign "|" => some 7
  | _ => none

/-- The operator of an assignment with a value before it. -/
def compound? : Lexeme → Option Raw
  | .sign "*=" => some "*"
  | .sign "/=" => some "/"
  | .sign "%=" => some "%"
  | .sign "+=" => some "+"
  | .sign "-=" => some "-"
  | .sign "<<=" => some "<<"
  | .sign ">>=" => some ">>"
  | .sign "&=" => some "&"
  | .sign "^=" => some "^"
  | .sign "|=" => some "|"
  | _ => none

/-- A part of the work on an expression; its state is what is still to be read. -/
abbrev Calculation := ReaderT Raw (StateT (List Lexeme) ShellM)

/-- Tell what is wrong with the expression. -/
def wrong {α : Type} (what : Raw) : Calculation α := do
  let text ← read
  (trouble ("arithmetic expression: " ++ what ++ ": \"" ++ text ++ "\"") : ShellM α)

/-- Sixty-four bits of a number. -/
def bits (n : Int) : BitVec 64 := BitVec.ofInt 64 n

/-- The number that a truth value counts as. -/
def truth (b : Bool) : Int := if b then 1 else 0

/-- Apply an operator. -/
def apply (op : Raw) (a b : Int) : Calculation Int :=
  match op with
  | "*" => return wrap (a * b)
  | "/" => if b = 0 then wrong "division by zero" else return wrap (Int.tdiv a b)
  | "%" => if b = 0 then wrong "division by zero" else return wrap (Int.tmod a b)
  | "+" => return wrap (a + b)
  | "-" => return wrap (a - b)
  | "<<" => return (bits a <<< (bits b).toNat % 64).toInt
  | ">>" => return ((bits a).sshiftRight ((bits b).toNat % 64)).toInt
  | "<" => return truth (a < b)
  | "<=" => return truth (a ≤ b)
  | ">" => return truth (a > b)
  | ">=" => return truth (a ≥ b)
  | "==" => return truth (a = b)
  | "!=" => return truth (a ≠ b)
  | "&" => return (bits a &&& bits b).toInt
  | "^" => return (bits a ^^^ bits b).toInt
  | _ => return (bits a ||| bits b).toInt

/-- The number that a variable holds. One without a value counts as zero. -/
def held (name : Raw) : ShellM Int := do
  let text := ((← get).value? name).getD ""
  if text.toList.all Number.isBlank then return 0
  match wholeNumber? true text with
  | some n => return n
  | none => badNumber text

/-- Take the next lexeme away. -/
def next : Calculation (Option Lexeme) := do
  match ← get with
  | [] => return none
  | l :: rest =>
    set rest
    return some l

/-- Take the next lexeme away if it is the given sign. -/
def accept (sign : Raw) : Calculation Bool := do
  match ← get with
  | .sign s :: rest =>
    if s = sign then
      set rest
      return true
    else return false
  | _ => return false

mutual

/-- An assignment or a condition. `counts` tells whether it is worked out. -/
def assignment (counts : Bool) : Nat → Calculation Int
  | 0 => wrong "too long"
  | fuel + 1 => do
    match ← get with
    | .name name :: op :: rest =>
      if op = .sign "=" || (compound? op).isSome then
        set rest
        let b ← assignment counts fuel
        if !counts then return b
        let value ← match compound? op with
          | none => pure b
          | some op => do apply op (← (held name : ShellM Int)) b
        (assign name (toString value) : ShellM Unit)
        return value
      else condition counts fuel
    | _ => condition counts fuel

/-- A value that depends on another. -/
def condition (counts : Bool) : Nat → Calculation Int
  | 0 => wrong "too long"
  | fuel + 1 => do
    let a ← either counts fuel
    if ← accept "?" then
      let b ← assignment (counts && a ≠ 0) fuel
      if !(← accept ":") then wrong "expecting ':'"
      let c ← condition (counts && a = 0) fuel
      return if a ≠ 0 then b else c
    else return a

/-- Values of which one is enough. -/
def either (counts : Bool) : Nat → Calculation Int
  | 0 => wrong "too long"
  | fuel + 1 => do
    let a ← both counts fuel
    if ← accept "||" then
      let b ← either (counts && a = 0) fuel
      return truth (a ≠ 0 || b ≠ 0)
    else return a

/-- Values of which all are needed. -/
def both (counts : Bool) : Nat → Calculation Int
  | 0 => wrong "too long"
  | fuel + 1 => do
    let a ← joined counts fuel
    if ← accept "&&" then
      let b ← both (counts && a ≠ 0) fuel
      return truth (a ≠ 0 && b ≠ 0)
    else return a

/-- Values joined by operators. -/
def joined (counts : Bool) : Nat → Calculation Int
  | 0 => wrong "too long"
  | fuel + 1 => do chain counts 8 (← primary counts fuel) fuel

/-- Go on from a value with the operators that bind more than a rank. -/
def chain (counts : Bool) (rank : Nat) (a : Int) : Nat → Calculation Int
  | 0 => wrong "too long"
  | fuel + 1 => do
    match ← get with
    | .sign op :: rest =>
      match rank? (.sign op) with
      | none => return a
      | some own =>
        if rank ≤ own then return a
        set rest
        let b ← primary counts fuel
        let b ← chain counts own b fuel
        chain counts rank (← if counts then apply op a b else pure b) fuel
    | _ => return a

/-- A single value. -/
def primary (counts : Bool) : Nat → Calculation Int
  | 0 => wrong "too long"
  | fuel + 1 => do
    match ← next with
    | some (.number n) => return n
    | some (.name name) => if counts then (held name : ShellM Int) else return 0
    | some (.sign "(") =>
      let a ← assignment counts fuel
      if !(← accept ")") then wrong "expecting ')'"
      return a
    | some (.sign "+") => primary counts fuel
    | some (.sign "-") => return wrap (-(← primary counts fuel))
    | some (.sign "!") => return truth ((← primary counts fuel) = 0)
    | some (.sign "~") => return wrap (-(← primary counts fuel) - 1)
    | _ => wrong "expecting primary"

end

/-- Work out an expression. -/
def evaluate (text : Raw) : ShellM Int := do
  let whole : Calculation Int := do
    let n ← assignment true manyRounds
    if !(← get).isEmpty then wrong "expecting EOF"
    return n
  let (n, _) ← (whole.run text).run (lexemes (text.length + 1) text.toList)
  return n

end Arithmetic

end Script

end Conch
