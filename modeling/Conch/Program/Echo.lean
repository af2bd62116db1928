-- SUMMARY: The program echo, which writes its arguments.
import Conch.Program.Number

/-!
# Writing arguments

`echo` writes its arguments with blanks between them. Letters after a dash say whether a
line end follows and whether escapes are replaced.
-/

namespace Conch

namespace Echo

/-- What the letters before the arguments ask for. -/
structure Plan where
  isLine : Bool := true
  escapes : Bool := false

/-- Take a letter. -/
def Plan.take (p : Plan) : Char → Plan
  | 'n' => { p with isLine := false }
  | 'e' => { p with escapes := true }
  | _ => { p with escapes := false }

/-- Take the letters before the arguments. -/
def Plan.takeAll (p : Plan) : List Raw → Plan × List Raw
  | [] => (p, [])
  | word :: rest =>
    match word.toList with
    | '-' :: c :: cs =>
      if (c :: cs).all ("neE".toList.contains ·) then Plan.takeAll ((c :: cs).foldl Plan.take p) rest
      else (p, word :: rest)
    | _ => (p, word :: rest)

/-- What a letter after a backslash stands for. -/
def letter? : Char → Option Char
  | '\\' => some '\\'
  | 'a' => some '\x07'
  | 'b' => some '\x08'
  | 'e' => some '\x1b'
  | 'f' => some '\x0c'
  | 'n' => some '\n'
  | 'r' => some '\r'
  | 't' => some '\t'
  | 'v' => some '\x0b'
  | _ => none

/-- The character with a number of up to so many digits in a base, and what follows them. -/
def numbered (base most : Nat) (cs : List Char) : Char × List Char :=
  let digits := (cs.take most).takeWhile (Number.isDigitIn base)
  let n := ((Number.digitsIn? base digits).map (·.1)).getD 0
  (Char.ofNat (n % 256), cs.drop digits.length)

/-- A text with its escapes replaced, and whether one of them ends all output. `fuel` bounds the
    characters. -/
def escaped : Nat → List Char → List Char × Bool
  | 0, _ | _, [] => ([], false)
  | fuel + 1, '\\' :: c :: cs =>
    let go (found : List Char) (rest : List Char) : List Char × Bool :=
      let (after, ends) := escaped fuel rest
      (found ++ after, ends)
    if c = 'c' then ([], true)
    else if c = 'x' && (cs.head?.map (Number.isDigitIn 16)).getD false then
      let (d, rest) := numbered 16 2 cs
      go [d] rest
    else if c = '0' then
      let (d, rest) := numbered 8 3 cs
      go [d] rest
    else if Number.isDigitIn 8 c then
      let (d, rest) := numbered 8 3 (c :: cs)
      go [d] rest
    else
      match letter? c with
      | some d => go [d] cs
      | none => go ['\\', c] cs
  | fuel + 1, c :: cs =>
    let (after, ends) := escaped fuel cs
    (c :: after, ends)

/-- Write arguments one after the other. -/
def writeAll (p : Plan) : List Raw → Act Unit
  | [] => if p.isLine then Act.putText "\n" else return ()
  | word :: rest => do
    let (text, ends) := if p.escapes then escaped (word.length + 1) word.toList else (word.toList, false)
    Act.putText (String.ofList text)
    if ends then return ()
    if !rest.isEmpty then Act.putText " "
    writeAll p rest

/-- Write the arguments. -/
def echo : Act Nat := do
  let i ← read
  let isStrict := i.environment.any (·.1 = "POSIXLY_CORRECT")
  let mayAsk := !isStrict || i.args.head? = some "-n"
  if mayAsk && (i.args = ["--help"] || i.args = ["--version"]) then return 0
  let (p, words) := if mayAsk then Plan.takeAll {} i.args else ({}, i.args)
  writeAll { p with escapes := p.escapes || isStrict } words
  return 0

end Echo

end Conch
