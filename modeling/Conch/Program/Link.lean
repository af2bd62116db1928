-- SUMMARY: The program ln, which makes links to files.
import Conch.Program.FileName
import Conch.System.Canonical

/-!
# Making links

A link gives a file one more name, or is symbolic and holds a path. It is made if
nothing has the new name yet; what has the name already is replaced if asked for.
-/

namespace Conch

namespace Link

/-- What the options ask for. -/
structure Style where
  symbolic : Bool := false
  /-- Replace what has the name already. -/
  force : Bool := false
  ask : Bool := false
  /-- A symbolic link to a directory is not entered. -/
  noFollow : Bool := false
  /-- Symbolic links that are linked to are followed. -/
  logical : Bool := false
  relative : Bool := false
  directories : Bool := false
  verbose : Bool := false
  target : Option Raw := none
  noTarget : Bool := false
  backup : Backup := .off
  /-- The word that tells how replaced files are kept. -/
  backupWord : Option Raw := none
  suffix : Raw := "~"

/-- Tell something and fail. -/
def refused (text : Raw) : Act Bool := do
  Act.complain text
  return false

/-- Make a link, if nothing has the name yet. -/
def make (style : Style) (source name : Raw) : Act (Except Errno Unit) :=
  if style.symbolic then Act.change (.symlink (Raw.decode source) (Raw.decode name))
  else Act.change (.hardLink (Raw.decode source) (Raw.decode name) style.logical)

/-- The path from a directory to a file, both absolute. -/
def between (dir file : List String) : List String :=
  match dir, file with
  | a :: dir', b :: file' => if a = b then between dir' file' else dir.map (fun _ => "..") ++ file
  | _, _ => dir.map (fun _ => "..") ++ file

/-- The path of a file as it is seen from the place of a link. -/
def relativePath (source name : Raw) : Act Raw := do
  let base := (← read).directory
  match ← Act.call (.pathOf base) with
  | .error _ => return source
  | .ok here =>
    let here := Path.ofString here
    let dir ← liftM (Canonical.canonical base here (Path.ofString (Raw.decode (FileName.parent name))))
    let file ← liftM (Canonical.canonical base here (Path.ofString (Raw.decode source)))
    let parts := between dir.parts file.parts
    return Raw.encode (if parts.isEmpty then "." else "/".intercalate parts)

/-- Tell that a link was made. -/
def announce (style : Style) (source name : Raw) (backup : Option Raw) : Act Bool := do
  if style.verbose then
    let before := match backup with
      | some kept => Quote.always kept ++ " ~ "
      | none => ""
    Act.putText (before ++ Quote.always name ++ (if style.symbolic then " -> " else " => ") ++
      Quote.always source ++ "\n")
  return true

/-- Tell why a link could not be made. -/
def notMade (style : Style) (source name : Raw) (e : Errno) : Act Bool := do
  let what :=
    if style.symbolic then
      if e ≠ .nameTooLong && !source.isEmpty then "symbolic link " ++ Quote.always name
      else "symbolic link " ++ Quote.always name ++ " -> " ++ Quote.always source
    else
      match e with
      | .alreadyExists | .noSpace => "hard link " ++ Quote.always name
      | _ => "hard link " ++ Quote.always name ++ " => " ++ Quote.always source
  refused ("failed to create " ++ what ++ ": " ++ e.text)

/-- Make a link in place of another file: under a passing name first, so that nothing is lost if the
    link cannot be made. -/
def makeOver (style : Style) (source name : Raw) : Act (Except Errno Unit) := do
  let passing := FileName.inside (FileName.parent name) "CuFGBFQc"
  match ← make style source passing with
  | .error e => return .error e
  | .ok () =>
    let result ← Act.change (.rename (Raw.decode passing) (Raw.decode name) false)
    let _ ← Act.change (.unlink (Raw.decode passing))
    return result

/-- Whether a question has to be asked and is declined. -/
def declines (style : Style) (question : Raw) : Act Bool := do
  if style.ask then return !(← FileName.agrees question) else return false

/-- Whether taking away what has a name would take away what the link is to lead to. -/
def isSameFile (style : Style) (source name : Raw) (new : FileInfo) : Act Bool := do
  let isChecked := if style.backup = .off then style.force else !style.symbolic
  if !isChecked then return false
  match ← Act.info source (style.symbolic || style.logical) with
  | .error _ => return false
  | .ok old =>
    if old.node ≠ new.node then return false
    else if (← Act.call (.nameCount old.node)) = 1 then return true
    else FileName.areSame source name

/-- Make a link in place of what has its name. -/
def replace (style : Style) (made : List Raw) (source name : Raw) (new : FileInfo) : Act Bool := do
  if new.kind = .dir then refused (Quote.ifNeeded name ++ ": cannot overwrite directory")
  else if ← isSameFile style source name new then
    refused (Quote.always source ++ " and " ++ Quote.always name ++ " are the same file")
  else if made.contains name then
    refused ("will not overwrite just-created " ++ Quote.always name ++ " with " ++ Quote.always source)
  else if ← declines style ("replace " ++ Quote.always name) then return true
  else
    let backup ← if style.backup = .off then pure none
      else some <$> style.backup.nameFor style.suffix (FileName.strip name)
    match backup with
    | none =>
      match ← makeOver style source name with
      | .ok () => announce style source name none
      | .error e => notMade style source name e
    | some kept =>
      match ← Act.change (.rename (Raw.decode name) (Raw.decode kept) false) with
      | .error e => notMade style source name e
      | .ok () =>
        match ← make style source name with
        | .ok () => announce style source name backup
        | .error e =>
          let good ← notMade style source name e
          let _ ← Act.change (.rename (Raw.decode kept) (Raw.decode name) false)
          return good

/-- Try to make a link, unless its text is still to be found. -/
def attempt (style : Style) (source name : Raw) : Act (Except Errno Unit) :=
  if style.relative then return .error .alreadyExists else make style source name

/-- Make one link, after it was tried. `made` are the names given in this run. -/
def linkOne (style : Style) (made : List Raw) (tried : Except Errno Unit) (source name : Raw) : Act Bool := do
  let given := source
  match tried with
  | .ok () => announce style source name none
  | .error e =>
    if style.symbolic && source.isEmpty then return ← notMade style source name .noEntry
    let old ← if style.symbolic then pure (.ok none) else Except.map some <$> Act.info source style.logical
    match old with
    | .error e => refused ("failed to access " ++ Quote.always source ++ ": " ++ e.text)
    | .ok info =>
      let isDir := match info with
        | some info => info.kind = .dir
        | none => false
      if isDir && !style.directories then
        refused (Quote.ifNeeded source ++ ": hard link not allowed for directory")
      else
        let source ← if style.relative && !given.isEmpty then relativePath given name else pure given
        match ← Act.info name false with
        | .ok new =>
          if style.force || style.ask || style.backup ≠ .off then replace style made source name new
          else notMade style source name e
        | .error missing =>
          if missing ≠ .noEntry && (style.force || style.ask || style.backup ≠ .off) then
            refused ("failed to access " ++ Quote.always name ++ ": " ++ missing.text)
          else if style.relative then
            match ← make style source name with
            | .ok () => announce style source name none
            | .error e => notMade style source name e
          else notMade style source name e

/-- Make links in a directory one after the other. -/
def linkInto (style : Style) (dir : Raw) : List Raw → List Raw → Act Bool
  | [], _ => return true
  | source :: rest, made => do
    let name := FileName.inside dir (FileName.strip (FileName.last source))
    let good ← linkOne style made (← attempt style source name) source name
    let others ← linkInto style dir rest (if good && !style.symbolic then name :: made else made)
    return good && others

/-- The options of the program. -/
def options : List OptionSpec :=
  [ ⟨"b", [], .flag⟩, ⟨"backup", ["backup"], .optional⟩, ⟨"d", ["directory"], .flag⟩, ⟨"F", [], .flag⟩,
    ⟨"n", ["no-dereference"], .flag⟩, ⟨"T", ["no-target-directory"], .flag⟩, ⟨"f", ["force"], .flag⟩,
    ⟨"i", ["interactive"], .flag⟩, ⟨"S", ["suffix"], .value⟩, ⟨"t", ["target-directory"], .value⟩,
    ⟨"L", ["logical"], .flag⟩, ⟨"P", ["physical"], .flag⟩, ⟨"r", ["relative"], .flag⟩,
    ⟨"s", ["symbolic"], .flag⟩, ⟨"v", ["verbose"], .flag⟩ ]

/-- Take an option. -/
def Style.take (style : Style) (key : String) (value : Raw) : Act Style := do
  let kept := if style.backup = .off then .existing else style.backup
  match key with
  | "b" => return { style with backup := kept }
  | "backup" =>
    return { style with backup := kept, backupWord := if value.isEmpty then style.backupWord else some value }
  | "S" => return { style with backup := kept, suffix := value }
  | "d" | "F" => return { style with directories := true }
  | "n" => return { style with noFollow := true }
  | "T" => return { style with noTarget := true }
  | "f" => return { style with force := true, ask := false }
  | "i" => return { style with force := false, ask := true }
  | "t" =>
    if style.target.isSome then Act.fail "multiple target directories specified" 1
    else
      match ← Act.info value true with
      | .error e => Act.fail ("failed to access " ++ Quote.always value ++ ": " ++ e.text) 1
      | .ok info =>
        if info.kind ≠ .dir then Act.fail ("target " ++ Quote.always value ++ " is not a directory") 1
        else return { style with target := some value }
  | "L" => return { style with logical := true }
  | "P" => return { style with logical := false }
  | "r" => return { style with relative := true }
  | "s" => return { style with symbolic := true }
  | "v" => return { style with verbose := true }
  | _ => return style

/-- The cause for which a path is no directory, if it is none. -/
def noDirectory? (style : Style) (path : Raw) : Act (Option Errno) := do
  match ← Act.info path (!style.noFollow) with
  | .ok info => return if info.kind = .dir then none else some .notDirectory
  | .error e => return some e

/-- Make links. -/
def ln : Act Nat := do
  let a ← Act.arguments options
  let style ← Act.withOptions a ({} : Style) 1 Style.take
  match a.operands with
  | [] => Act.misused "missing file operand" 1
  | _ => pure ()
  if style.relative && !style.symbolic then Act.fail "cannot do --relative without --symbolic" 1
  if style.noTarget then
    if style.target.isSome then
      Act.fail "cannot combine --target-directory and --no-target-directory" 1
    match a.operands with
    | [_, _] => pure ()
    | _ :: _ :: extra :: _ => Act.misused ("extra operand " ++ Quote.always extra) 1
    | operands =>
      Act.misused ("missing destination file operand after " ++ Quote.always (operands.headD "")) 1
  let name := a.operands.getLastD ""
  -- Two names may be all that is needed, so they are tried before anything else is looked at.
  let tried ← match a.operands with
    | [source, name] =>
      if style.noTarget || style.target.isSome then pure none else some <$> attempt style source name
    | _ => pure none
  let dir ← match style.target, a.operands, tried with
    | some dir, _, _ => pure (some dir)
    | none, [_], _ => pure (some ".")
    | none, operands, tried =>
      let isSettled := style.noTarget || match tried with
        | none | some (.error .alreadyExists) | some (.error .notDirectory) | some (.error .invalid) => false
        | _ => true
      if isSettled then pure none
      else
        match ← noDirectory? style name with
        | none => pure (some name)
        | some e =>
          if operands.length = 2 then pure none
          else Act.fail ("target " ++ Quote.always name ++ ": " ++ e.text) 1
  let style := { style with backup := ← style.backup.settle style.backupWord }
  let source := a.operands.headD ""
  let good ← match dir, tried with
    | some dir, _ =>
      linkInto style dir
        (if style.target.isSome || a.operands.length = 1 then a.operands else a.operands.dropLast) []
    | none, some tried => linkOne style [] tried source name
    | none, none => do linkOne style [] (← attempt style source name) source name
  return if good then 0 else 1

end Link

end Conch
