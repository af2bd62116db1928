-- SUMMARY: The programs mkdir and rmdir, which make and remove directories.
import Conch.Program.FileName

/-!
# Making and removing directories

Each operand is dealt with on its own: what fails is told, and the rest goes on.
With the directories above an operand, `mkdir` makes those that are missing from
the top down, and `rmdir` removes those that have become empty from the bottom up.
-/

namespace Conch

namespace Directories

/-- Write a line about what was done after the program's name. -/
def announce (verbose : Bool) (text : Raw) : Act Unit := do
  if verbose then Act.putText ((← read).name ++ ": " ++ text ++ "\n")

/-! ## Modes -/

/-- Whether a text is a change of a mode by letters. -/
def isSymbolic (clause : List Char) : Bool :=
  let actions := clause.dropWhile ("ugoa".toList.contains ·)
  let isOperator := ("+-=".toList.contains ·)
  match actions with
  | [] => false
  | c :: rest => isOperator c && rest.all fun c => isOperator c || "rwxXstugo".toList.contains c

/-- Whether a text is a mode. -/
def isMode (text : Raw) : Bool :=
  let cs := text.toList
  if !cs.isEmpty && cs.all (Number.isDigitIn 8) then
    ((Number.digitsIn? 8 cs).map (·.1)).getD 0 ≤ 4095
  else (text.splitOn ",").all fun clause => isSymbolic clause.toList

/-! ## mkdir -/

/-- The names of the directories above a path, as they are written in it, the highest first. -/
def above (path : Raw) : List Raw :=
  let cs := path.toList
  let ends := (List.range cs.length).filter fun k =>
    0 < k && cs.getD k ' ' = '/' && cs.getD (k - 1) '/' ≠ '/' && (cs.drop k).any (· ≠ '/')
  ends.map fun k => String.ofList (cs.take k)

/-- Tell why a directory could not be made. -/
def notMade (path : Raw) (e : Errno) : Act Bool := do
  Act.complain ("cannot create directory " ++ Quote.plain path ++ ": " ++ e.text)
  return false

/-- Make one directory, and say so if asked to. -/
def make (verbose : Bool) (path : Raw) : Act (Except Errno Unit) := do
  let result ← Act.change (.makeDir (Raw.decode path))
  if let .ok () := result then announce verbose ("created directory " ++ Quote.always path)
  return result

/-- Make the directories above a path that are missing. Gives whether all are there. -/
def makeAbove (verbose : Bool) : List Raw → Act Bool
  | [] => return true
  | dir :: rest => do
    let name := FileName.last dir
    if name = "." then makeAbove verbose rest
    else
      let made ← if name = ".." then pure (.ok ()) else make verbose dir
      match ← Act.call (.enter (← read).directory (Raw.decode dir)), made with
      | .ok _, _ => makeAbove verbose rest
      | .error .noEntry, .error e => notMade dir e
      | .error e, _ => notMade dir e

/-- Make a directory and those above it. -/
def makeAll (verbose : Bool) (path : Raw) : Act Bool := do
  if ← makeAbove verbose (above path) then
    match ← make verbose path with
    | .ok () => return true
    | .error e => if e ≠ .noEntry && (← FileName.isDir path true) then return true else notMade path e
  else return false

/-- What the options of `mkdir` ask for. -/
structure MakeStyle where
  parents : Bool := false
  verbose : Bool := false
  mode : Option Raw := none

/-- Make directories. -/
def mkdir : Act Nat := do
  let a ← Act.arguments
    [ ⟨"m", ["mode"], .value⟩, ⟨"p", ["parents"], .flag⟩, ⟨"v", ["verbose"], .flag⟩, ⟨"Z", [], .flag⟩,
      ⟨"context", ["context"], .optional⟩ ]
  let style ← Act.withOptions a ({} : MakeStyle) 1 fun style key value =>
    return match key with
      | "m" => { style with mode := some value }
      | "p" => { style with parents := true }
      | "v" => { style with verbose := true }
      | _ => style
  if a.operands.isEmpty then Act.misused "missing operand" 1
  if let some mode := style.mode then
    if !isMode mode then Act.fail ("invalid mode " ++ Quote.plain mode) 1
  FileName.forAll a.operands fun path => do
    if style.parents then makeAll style.verbose path
    else
      match ← make style.verbose path with
      | .ok () => return true
      | .error e => notMade path e

/-! ## rmdir -/

/-- What the options of `rmdir` ask for. -/
structure RemoveStyle where
  parents : Bool := false
  verbose : Bool := false
  /-- Directories that are not empty are no failure. -/
  lenient : Bool := false

/-- Whether a failure is passed over. -/
def RemoveStyle.passes (style : RemoveStyle) (path : Raw) (e : Errno) : Act Bool := do
  if !style.lenient then return false
  match e with
  | .notEmpty | .alreadyExists => return true
  | .busy | .notPermitted | .accessDenied =>
    match ← Act.call (.list (← read).directory (Raw.decode path)) with
    | .ok (_ :: _) => return true
    | _ => return false
  | _ => return false

/-- Remove one directory, saying so first if asked to. -/
def remove (style : RemoveStyle) (path : Raw) : Act (Except Errno Unit) := do
  announce style.verbose ("removing directory, " ++ Quote.always path)
  Act.change (.removeDir (Raw.decode path))

/-- The part of a path before its last name, without slashes at its end unless it is the root. -/
def upward? (path : Raw) : Option Raw :=
  let before := path.toList.reverse.dropWhile (· ≠ '/')
  if before.isEmpty then none
  else
    let rest := before.dropWhile (· = '/')
    some (if rest.isEmpty then "/" else String.ofList rest.reverse)

/-- Remove the directories above a path. `fuel` bounds their number. -/
def removeAbove (style : RemoveStyle) : Nat → Raw → Act Bool
  | 0, _ => return true
  | fuel + 1, path => do
    match upward? path with
    | none => return true
    | some dir =>
      match ← remove style dir with
      | .ok () => removeAbove style fuel dir
      | .error e =>
        if ← style.passes dir e then return true
        let what := if e = .notDirectory then "failed to remove " else "failed to remove directory "
        Act.complain (what ++ Quote.always dir ++ ": " ++ e.text)
        return false

/-- Whether a path is a symbolic link with a slash after it. -/
def isLinkWithSlash (path : Raw) : Act Bool := do
  if !path.endsWith "/" then return false
  let leads ← match ← Act.info path true with
    | .ok info => pure (info.kind = .dir : Bool)
    | .error e => pure (e ≠ .notDirectory : Bool)
  match ← Act.info (FileName.strip path) false with
  | .ok info => return leads && info.kind = .link
  | .error _ => return false

/-- Remove empty directories. -/
def rmdir : Act Nat := do
  let a ← Act.arguments
    [ ⟨"ignore-fail-on-non-empty", ["ignore-fail-on-non-empty"], .flag⟩,
      ⟨"p", ["path", "parents"], .flag⟩, ⟨"v", ["verbose"], .flag⟩ ]
  let style ← Act.withOptions a ({} : RemoveStyle) 1 fun style key _ =>
    return match key with
      | "p" => { style with parents := true }
      | "v" => { style with verbose := true }
      | _ => { style with lenient := true }
  if a.operands.isEmpty then Act.misused "missing operand" 1
  FileName.forAll a.operands fun path => do
    match ← remove style path with
    | .ok () =>
      if style.parents then removeAbove style path.length (FileName.strip path) else return true
    | .error e =>
      if ← style.passes path e then return true
      let isLink ← if e = .notDirectory then isLinkWithSlash path else pure false
      let cause := if isLink then "Symbolic link not followed" else e.text
      Act.complain ("failed to remove " ++ Quote.always path ++ ": " ++ cause)
      return false

end Directories

end Conch
