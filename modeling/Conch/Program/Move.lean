-- SUMMARY: The program mv, which gives files other names and places.
import Conch.Program.FileName

/-!
# Moving files

A file is given its new name if nothing has it yet. What has the name already is
replaced if it is of the same sort, and told otherwise. Files that were put into a
directory in the same run are not replaced.
-/

namespace Conch

namespace Move

/-- What is done if the new name is taken. -/
inductive Clash where
  | replace
  | ask
  | keep
  deriving DecidableEq, Repr

/-- What the options ask for. -/
structure Style where
  clash : Clash := .replace
  verbose : Bool := false
  /-- Keep what is not older than the file to move. -/
  update : Bool := false
  stripSlashes : Bool := false
  target : Option Raw := none
  noTarget : Bool := false
  backup : Backup := .off
  /-- The word that tells how replaced files are kept. -/
  backupWord : Option Raw := none
  suffix : Raw := "~"

/-- Tell something and fail. -/
def refused (text : Raw) : Act Bool := do
  Act.complain text
  return false

/-- Whether moving would destroy what is moved: both names belong to one file. -/
def isSameFile (style : Style) (source target : Raw) (old new : FileInfo) : Act Bool := do
  let same := old.node = new.node
  if old.kind = .link && new.kind = .link then
    return (← FileName.areSame source target) || (same && style.backup = .off)
  else if style.backup ≠ .off then return same && (← FileName.areSame source target)
  else if new.kind = .link then return false
  else if old.kind = .link then
    match ← Act.info source true with
    | .ok info => return info.node = new.node
    | .error _ => return false
  else return same

/-- Give a file its new name in place of what has it. -/
def replace (style : Style) (source target : Raw) (backup : Option Raw) : Act Bool := do
  let quoted := Quote.always
  match ← Act.change (.rename (Raw.decode source) (Raw.decode target) false) with
  | .ok () =>
    if style.verbose then
      Act.putText ("renamed " ++ quoted source ++ " -> " ++ quoted target ++
        (match backup with
          | some name => " (backup: " ++ quoted name ++ ")"
          | none => "") ++ "\n")
    return true
  | .error .invalid =>
    refused ("cannot move " ++ quoted source ++ " to a subdirectory of itself, " ++ quoted target)
  | .error e =>
    match e with
    | .alreadyExists | .isDirectory | .noSpace | .notEmpty | .busyText =>
      refused ("cannot overwrite " ++ quoted target ++ ": " ++ e.text)
    | _ => refused ("cannot move " ++ quoted source ++ " to " ++ quoted target ++ ": " ++ e.text)

/-- Whether a question has to be asked and is declined. -/
def declines (style : Style) (question : Raw) : Act Bool := do
  if style.clash = .ask then return !(← FileName.agrees question) else return false

/-- Move one file whose new name is taken. `made` are the names given in this run. -/
def moveOnto (style : Style) (made : List Raw) (source target : Raw) (old new : FileInfo) : Act Bool := do
  let quoted := Quote.always
  if ← isSameFile style source target old new then
    refused (quoted source ++ " and " ++ quoted target ++ " are the same file")
  else if style.update && old.kind ≠ .dir then return true
  else if ← declines style ("overwrite " ++ quoted target) then return true
  else if new.kind ≠ .dir && old.kind = .dir && style.backup = .off then
    refused ("cannot overwrite non-directory " ++ quoted target ++ " with directory " ++ quoted source)
  else if new.kind ≠ .dir && style.backup ≠ .numbered && made.contains target then
    refused ("will not overwrite just-created " ++ quoted target ++ " with " ++ quoted source)
  else if new.kind = .dir && old.kind ≠ .dir && style.backup = .off then
    refused ("cannot overwrite directory " ++ quoted target ++ " with non-directory")
  else if style.backup ≠ .off && !FileName.isDots source then
    let name ← style.backup.nameFor style.suffix (FileName.strip target)
    match ← Act.change (.rename (Raw.decode target) (Raw.decode name) false) with
    | .ok () => replace style source target (some name)
    | .error e => refused ("cannot backup " ++ quoted target ++ ": " ++ e.text)
  else replace style source target none

/-- Try to give a file a new name that nothing has yet. -/
def attempt (source target : Raw) : Act (Except Errno Unit) :=
  Act.change (.rename (Raw.decode source) (Raw.decode target) true)

/-- Move one file, after it was tried. -/
def moveOne (style : Style) (made : List Raw) (tried : Except Errno Unit) (source target : Raw) : Act Bool := do
  let quoted := Quote.always
  match tried with
  | .ok () =>
    if style.verbose then Act.putText ("renamed " ++ quoted source ++ " -> " ++ quoted target ++ "\n")
    return true
  | .error first =>
    if first = .alreadyExists && style.clash = .keep then return true
    match ← Act.info source false with
    | .error e => refused ("cannot stat " ++ quoted source ++ ": " ++ e.text)
    | .ok old =>
      match ← Act.info target false with
      | .ok new =>
        if style.clash = .keep then return true else moveOnto style made source target old new
      | .error .noEntry =>
        match first with
        | .invalid =>
          refused ("cannot move " ++ quoted source ++ " to a subdirectory of itself, " ++ quoted target)
        | .alreadyExists | .isDirectory | .noSpace | .notEmpty | .busyText =>
          refused ("cannot overwrite " ++ quoted target ++ ": " ++ first.text)
        | e => refused ("cannot move " ++ quoted source ++ " to " ++ quoted target ++ ": " ++ e.text)
      | .error e => refused ("cannot stat " ++ quoted target ++ ": " ++ e.text)

/-- Move files into a directory one after the other. -/
def moveInto (style : Style) (dir : Raw) : List Raw → List Raw → Act Bool
  | [], _ => return true
  | source :: rest, made => do
    let target := FileName.inside dir (FileName.strip (FileName.last source))
    let good ← moveOne style made (← attempt source target) source target
    let others ← moveInto style dir rest (if good then target :: made else made)
    return good && others

/-- The options of the program. -/
def options : List OptionSpec :=
  [ ⟨"b", [], .flag⟩, ⟨"backup", ["backup"], .optional⟩, ⟨"Z", ["context"], .flag⟩, ⟨"f", ["force"], .flag⟩,
    ⟨"i", ["interactive"], .flag⟩, ⟨"n", ["no-clobber"], .flag⟩, ⟨"T", ["no-target-directory"], .flag⟩,
    ⟨"strip", ["strip-trailing-slashes"], .flag⟩, ⟨"S", ["suffix"], .value⟩,
    ⟨"t", ["target-directory"], .value⟩, ⟨"u", ["update"], .flag⟩, ⟨"v", ["verbose"], .flag⟩ ]

/-- Take an option. -/
def Style.take (style : Style) (key : String) (value : Raw) : Act Style := do
  let kept := if style.backup = .off then .existing else style.backup
  match key with
  | "b" => return { style with backup := kept }
  | "backup" =>
    return { style with backup := kept, backupWord := if value.isEmpty then style.backupWord else some value }
  | "S" => return { style with backup := kept, suffix := value }
  | "f" => return { style with clash := .replace }
  | "i" => return { style with clash := .ask }
  | "n" => return { style with clash := .keep }
  | "T" => return { style with noTarget := true }
  | "strip" => return { style with stripSlashes := true }
  | "t" =>
    if style.target.isSome then Act.fail "multiple target directories specified" 1
    else return { style with target := some value }
  | "u" => return { style with update := true }
  | "v" => return { style with verbose := true }
  | _ => return style

/-- The cause for which a path is no directory, if it is none. -/
def noDirectory? (path : Raw) : Act (Option Errno) := do
  match ← Act.info path true with
  | .ok info => return if info.kind = .dir then none else some .notDirectory
  | .error e => return some e

/-- Move files. -/
def mv : Act Nat := do
  let a ← Act.arguments options
  let style ← Act.withOptions a ({} : Style) 1 Style.take
  let files := if style.stripSlashes then a.operands.map FileName.strip else a.operands
  match a.operands, style.target with
  | [], _ => Act.misused "missing file operand" 1
  | [only], none => Act.misused ("missing destination file operand after " ++ Quote.always only) 1
  | _, _ => pure ()
  if style.noTarget && style.target.isSome then
    Act.fail "cannot combine --target-directory (-t) and --no-target-directory (-T)" 1
  if style.noTarget then
    if let _ :: _ :: extra :: _ := a.operands then
      Act.misused ("extra operand " ++ Quote.always extra) 1
  let target := a.operands.getLastD ""
  -- Two names may be all that is needed, so they are tried before anything else is looked at.
  let tried ← match a.operands with
    | [source, target] => if style.noTarget || style.target.isSome then pure none else some <$> attempt source target
    | _ => pure none
  let dir ← match style.target with
    | some dir =>
      match ← noDirectory? dir with
      | some e => Act.fail ("target directory " ++ Quote.always dir ++ ": " ++ e.text) 1
      | none => pure (some dir)
    | none =>
      match tried, style.noTarget with
      | some (.ok ()), _ | _, true => pure none
      | _, false =>
        match ← noDirectory? target with
        | none => pure (some target)
        | some e =>
          if 2 < files.length then Act.fail ("target " ++ Quote.always target ++ ": " ++ e.text) 1
          else pure none
  if style.clash = .keep && style.backup ≠ .off then
    Act.misused "options --backup and --no-clobber are mutually exclusive" 1
  let style := { style with backup := ← style.backup.settle style.backupWord }
  let source := files.headD ""
  let name := files.getLastD ""
  let good ← match dir, tried with
    | some dir, _ => moveInto style dir (if style.target.isSome then files else files.dropLast) []
    | none, some tried => moveOne style [] tried source name
    | none, none => do moveOne style [] (← attempt source name) source name
  return if good then 0 else 1

end Move

end Conch
