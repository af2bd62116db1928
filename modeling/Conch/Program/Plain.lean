-- SUMMARY: The plainest programs: true, false, pwd and yes.
import Conch.Program.Arguments
import Conch.Program.Quote

/-!
# Plain programs

These do not read anything.
-/

namespace Conch

namespace Plain

/-- Whether a path could have been followed to where it leads: it is absolute and has no parts that
    stay or go up. -/
def isLogical (path : Raw) : Bool :=
  path.startsWith "/" && (path.splitOn "/").all fun part => part ≠ "." && part ≠ ".."

/-- The path of the program's directory that the variables give, if it is right. -/
def logicalPath : Act (Option Raw) := do
  let i ← read
  match i.environment.lookup "PWD" with
  | none => return none
  | some path =>
    if !isLogical path then return none
    match ← Act.call (.enter i.directory (Raw.decode path)) with
    | .ok dir => return if dir = i.directory then some path else none
    | .error _ => return none

/-- Write the program's directory. -/
def pwd : Act Nat := do
  let a ← Act.arguments [⟨"L", ["logical"], .flag⟩, ⟨"P", ["physical"], .flag⟩]
  let start := (← read).environment.any (·.1 = "POSIXLY_CORRECT")
  let logical ← Act.withOptions a start 1 fun _ key _ => return key = "L"
  if !a.operands.isEmpty then Act.complain "ignoring non-option arguments"
  let given ← if logical then logicalPath else pure none
  match given with
  | some path =>
    Act.putText (path ++ "\n")
    return 0
  | none =>
    match ← Act.call (.pathOf (← read).directory) with
    | .ok path =>
      Act.putText (Raw.encode path ++ "\n")
      return 0
    | .error _ => Act.fail "couldn't find directory entry in '..' with matching i-node" 1

/-- Write some bytes over and over. -/
def writeForever (data : Bytes) : Nat → Act Nat
  | 0 => return 0
  | fuel + 1 => do
    match ← Act.putNow data with
    | .ok () => writeForever data fuel
    | .error e => Act.fail ("standard output: " ++ e.text) 1

/-- How much is written over and over at once. -/
def repetitionSize : Nat := 8192

/-- Write a line over and over. -/
def yes : Act Nat := do
  let a ← Act.arguments []
  Act.withOptions a () 1 fun _ _ _ => return ()
  let words := if a.operands.isEmpty then ["y"] else a.operands
  let line := Raw.bytes (" ".intercalate words ++ "\n")
  writeForever (List.replicate (max 1 (repetitionSize / line.length)) line).flatten manyRounds

end Plain

end Conch
