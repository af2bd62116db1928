-- SUMMARY: The program rm, which removes files and whole directories.
import Conch.Program.FileName

/-!
# Removing files

A directory is removed after all that is in it, and only if asked for. What fails
is told, and the rest goes on; a directory in which something failed stays, and so
do those above it, without a word.
-/

namespace Conch

namespace Remove

/-- When to ask before removing. -/
inductive Asking where
  | never
  | once
  | always
  deriving DecidableEq, Repr

/-- What the options ask for. -/
structure Style where
  recursive : Bool := false
  /-- What is missing is no failure. -/
  force : Bool := false
  emptyDirs : Bool := false
  verbose : Bool := false
  asking : Asking := .never
  keepRoot : Bool := true

/-- Whether a failure is passed over. -/
def Style.passes (style : Style) (e : Errno) : Bool :=
  style.force && (e = .noEntry || e = .notDirectory || e = .invalid)

/-- Tell why something could not be removed. -/
def notRemoved (path : Raw) (e : Errno) : Act Bool := do
  Act.complain ("cannot remove " ++ Quote.always path ++ ": " ++ e.text)
  return false

/-- How a question names a kind of file. -/
def kindText (info : FileInfo) : Raw :=
  match info.kind with
  | .dir => "directory"
  | .link => "symbolic link"
  | .device => "character special file"
  | .file _ => if info.size = 0 then "regular empty file" else "regular file"
  | .program _ => "regular file"

/-- Whether something may be removed. -/
def mayRemove (style : Style) (path : Raw) : Act Bool := do
  if style.asking ≠ .always then return true
  match ← Act.info path false with
  | .ok info => FileName.agrees ("remove " ++ kindText info ++ " " ++ Quote.always path)
  | .error _ => return true

/-- Take away the name of a file or of an empty directory. -/
def excise (style : Style) (path : Raw) (isDir : Bool) : Act Bool := do
  let target := Raw.decode path
  match ← Act.change (if isDir then .removeDir target else .unlink target) with
  | .ok () =>
    if style.verbose then
      Act.putText ((if isDir then "removed directory " else "removed ") ++ Quote.always path ++ "\n")
    return true
  | .error e => if style.passes e then return true else notRemoved path e

/-- Remove what a path leads to, with all that is in it. `fuel` bounds the depth. -/
def removeTree (style : Style) : Nat → Raw → Act Bool
  | 0, _ => return false
  | fuel + 1, path => do
    if ← FileName.isDir path false then
      match ← Act.call (.list (← read).directory (Raw.decode path)) with
      | .error e => notRemoved path e
      | .ok names =>
        let enter ← if style.asking = .always && !names.isEmpty
          then FileName.agrees ("descend into directory " ++ Quote.always path) else pure true
        if !enter then return true
        let results ← names.mapM fun name => removeTree style fuel (FileName.inside path (Raw.encode name))
        let isFree := match ← Act.call (.list (← read).directory (Raw.decode path)) with
          | .ok [] => true
          | _ => false
        if !results.all id then return false
        else if !isFree && style.asking = .always then return true
        else if ← mayRemove style path then excise style path true
        else return true
    else if ← mayRemove style path then excise style path false
    else return true

/-- How deep directories are removed. -/
def maxDepth : Nat := 4096

/-- A path with at most one slash at its end. -/
def tidy (path : Raw) : Raw :=
  if path.endsWith "//" && path ≠ "//" then
    let bare := FileName.strip path
    if bare = "/" then bare else bare ++ "/"
  else path

/-- Remove one operand. -/
def removeOne (style : Style) (operand : Raw) : Act Bool := do
  let path := tidy operand
  match ← Act.info path false with
  | .ok info =>
    if info.kind = .dir then
      let isFree := match ← Act.call (.list (← read).directory (Raw.decode path)) with
        | .ok [] => true
        | _ => false
      if !style.recursive && !(style.emptyDirs && isFree) then
        notRemoved path (if style.emptyDirs then .notEmpty else .isDirectory)
      else if FileName.isDots path then
        Act.complain ("refusing to remove '.' or '..' directory: skipping " ++ Quote.always path)
        return false
      else if style.keepRoot && info.node = FileSystem.root then
        Act.complain ("it is dangerous to operate recursively on " ++
          (if path = "/" then "'/'" else Quote.always path ++ " (same as '/')"))
        Act.complain "use --no-preserve-root to override this failsafe"
        return false
      else removeTree style maxDepth path
    else removeTree style maxDepth path
  | .error _ => excise style path false

/-- Point to a file whose name looks like options, if there is one. -/
def hintAtHyphen : List Raw → Act Unit
  | [] => return ()
  | arg :: rest => do
    if arg.startsWith "-" && arg ≠ "-" then
      match ← Act.info arg false with
      | .ok _ =>
        Act.putError ("Try '" ++ (← read).name ++ " ./" ++ Quote.asTyped arg ++ "' to remove the file " ++
          Quote.always arg ++ ".\n")
        Act.stop 1
      | .error _ => hintAtHyphen rest
    else hintAtHyphen rest

/-- The options of the program. -/
def options : List OptionSpec :=
  [ ⟨"d", ["dir"], .flag⟩, ⟨"f", ["force"], .flag⟩, ⟨"i", [], .flag⟩, ⟨"I", [], .flag⟩,
    ⟨"interactive", ["interactive"], .optional⟩, ⟨"one-file-system", ["one-file-system"], .flag⟩,
    ⟨"no-preserve-root", ["no-preserve-root"], .flag⟩, ⟨"preserve-root", ["preserve-root"], .optional⟩,
    ⟨"r", ["recursive"], .flag⟩, ⟨"R", [], .flag⟩, ⟨"v", ["verbose"], .flag⟩ ]

/-- Take an option. -/
def Style.take (style : Style) (key : String) (value : Raw) : Act Style := do
  match key with
  | "d" => return { style with emptyDirs := true }
  | "f" => return { style with force := true, asking := .never }
  | "i" => return { style with force := false, asking := .always }
  | "I" => return { style with force := false, asking := .once }
  | "interactive" =>
    match value with
    | "" | "always" | "yes" => return { style with force := false, asking := .always }
    | "once" => return { style with force := false, asking := .once }
    | "never" | "no" | "none" => return { style with asking := .never }
    | _ =>
      Act.complain ("invalid argument " ++ Quote.always value ++ " for '--interactive'")
      Act.putError ("Valid arguments are:\n  - 'never', 'no', 'none'\n  - 'once'\n  - 'always', 'yes'\n" ++
        "Try '" ++ (← read).name ++ " --help' for more information.\n")
      Act.stop 1
  | "r" | "R" => return { style with recursive := true }
  | "no-preserve-root" => return { style with keepRoot := false }
  | "v" => return { style with verbose := true }
  | _ => return style

/-- Remove files. -/
def rm : Act Nat := do
  let a ← Act.arguments options
  let args := (← read).args
  let style ← Act.withOptions { a with fault := none } ({} : Style) 1 Style.take
  if let some e := a.fault then
    Act.complain e.message
    hintAtHyphen args
    Act.putError ("Try '" ++ (← read).name ++ " --help' for more information.\n")
    Act.stop 1
  if a.operands.isEmpty then
    if style.force then return 0
    else Act.misused "missing operand" 1
  let count := a.operands.length
  if style.asking = .once && (style.recursive || 3 < count) then
    let question := "remove " ++ toString count ++ (if count = 1 then " argument" else " arguments") ++
      (if style.recursive then " recursively" else "")
    if !(← FileName.agrees question) then return 0
  FileName.forAll a.operands (removeOne style)

end Remove

end Conch
