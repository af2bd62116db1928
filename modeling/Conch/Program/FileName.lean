-- SUMMARY: File names as programs take them apart, and questions about the files they lead to.
import Conch.Program.Arguments
import Conch.Program.Number

/-!
# File names

A file name is taken apart as it is written: slashes at its end belong to its last
part, and a name is put into a directory with one slash between them.
-/

namespace Conch

namespace FileName

/-- A name without slashes at its end. One that is all slashes keeps the first. -/
def strip (name : Raw) : Raw :=
  let cs := (name.toList.reverse.dropWhile (· = '/')).reverse
  if cs.isEmpty && !name.isEmpty then "/" else String.ofList cs

/-- The last part of a name, with the slashes at its end. -/
def last (name : Raw) : Raw :=
  let cs := name.toList.reverse
  let slashes := cs.takeWhile (· = '/')
  let part := (cs.drop slashes.length).takeWhile (· ≠ '/')
  if part.isEmpty then "" else String.ofList (part.reverse ++ slashes)

/-- A name inside a directory. -/
def inside (dir name : Raw) : Raw :=
  if dir.endsWith "/" || dir.isEmpty then dir ++ name else dir ++ "/" ++ name

/-- What stands before the last part of a name. -/
def parent (name : Raw) : Raw :=
  let cs := (strip name).toList.reverse.dropWhile (· ≠ '/')
  match cs.dropWhile (· = '/') with
  | [] => if cs.isEmpty then "." else "/"
  | rest => String.ofList rest.reverse

/-- Whether a name ends in a part that stays or goes up. -/
def isDots (name : Raw) : Bool :=
  let part := strip (last name)
  part = "." || part = ".."

/-- Whether a path leads to a directory. -/
def isDir (path : Raw) (followLast : Bool) : Act Bool := do
  match ← Act.info path followLast with
  | .ok info => return info.kind = .dir
  | .error _ => return false

/-- Whether two paths end in the same name in the same directory. -/
def areSame (a b : Raw) : Act Bool := do
  if strip (last a) ≠ strip (last b) then return false
  match ← Act.info (parent a) true, ← Act.info (parent b) true with
  | .ok m, .ok n => return m.node = n.node
  | _, _ => return false

/-- A line of the standard input, byte by byte. `fuel` bounds its length. -/
def answer : Nat → List UInt8 → Act Bytes
  | 0, line => return line.reverse
  | fuel + 1, line => do
    match ← Act.call (.read (← read).stdin 1) with
    | .ok [b] => if b = 10 then return line.reverse else answer fuel (b :: line)
    | .ok _ => return line.reverse
    | .error _ =>
      modify fun b => { b with unanswered := true }
      return line.reverse

/-- Ask a question, which is answered by a line that begins with `y`. -/
def agrees (question : Raw) : Act Bool := do
  let _ ← Act.flush
  Act.putError ((← read).name ++ ": " ++ question ++ "? ")
  match ← answer manyRounds [] with
  | b :: _ => return b = 121 || b = 89
  | [] => return false

/-- Deal with operands one by one. Gives the code: 1 if one failed. -/
def forAll {α : Type} (operands : List α) (one : α → Act Bool) : Act Nat := do
  let results ← operands.mapM one
  return if results.all id then 0 else 1

end FileName

/-! ## Backups -/

/-- How files are kept that others take the place of. -/
inductive Backup where
  | off
  | simple
  | existing
  | numbered
  deriving DecidableEq, Repr

namespace Backup

/-- The words for the ways of keeping files. -/
def words : List (String × Backup) :=
  [ ("none", .off), ("off", .off), ("simple", .simple), ("never", .simple), ("existing", .existing),
    ("nil", .existing), ("numbered", .numbered), ("t", .numbered) ]

/-- The way that a word means, which may be cut short. -/
def ofWord? (word : Raw) : Option Backup :=
  match words.lookup word with
  | some b => some b
  | none =>
    match (words.filter fun (w, _) => w.startsWith word).map (·.2) with
    | [] => none
    | b :: rest => if rest.all (· = b) then some b else none

/-- Read the way to keep files; a word that means none ends the program. -/
def expect (word : Raw) : Act Backup := do
  match ofWord? word with
  | some b => return b
  | none =>
    let kind := if (words.filter fun (w, _) => w.startsWith word).isEmpty then "invalid" else "ambiguous"
    Act.complain (kind ++ " argument " ++ Quote.always word ++ " for 'backup type'")
    Act.putError ("Valid arguments are:\n  - 'none', 'off'\n  - 'simple', 'never'\n" ++
      "  - 'existing', 'nil'\n  - 'numbered', 't'\n")
    Act.putError ("Try '" ++ (← read).name ++ " --help' for more information.\n")
    Act.stop 1

/-- The way to keep files that options ask for: the word that was given for it counts, if one was. -/
def settle (b : Backup) (word : Option Raw) : Act Backup :=
  match b, word with
  | .off, _ => return .off
  | b, none => return b
  | _, some word => expect word

/-- The number in the name of a numbered backup. -/
def number? (file name : Raw) : Option Nat :=
  let start := (FileName.strip (FileName.last file)) ++ ".~"
  if name.startsWith start && name.endsWith "~" then
    let digits := (name.toList.drop start.length).dropLast
    if !digits.isEmpty && digits.all Char.isDigit && digits.head? ≠ some '0' then
      some (Number.ofDigits digits)
    else none
  else none

/-- The name under which a file is kept. -/
def nameFor (b : Backup) (suffix file : Raw) : Act Raw := do
  let names ← Act.call (.list (← read).directory (Raw.decode (FileName.parent file)))
  let highest := match names with
    | .ok names => (names.filterMap fun n => number? file (Raw.encode n)).foldl max 0
    | .error _ => 0
  if b = .numbered || (b = .existing && 0 < highest) then
    return file ++ ".~" ++ toString (highest + 1) ++ "~"
  else return file ++ suffix

end Backup

end Conch
