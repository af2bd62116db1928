-- SUMMARY: The built-in commands of scripts that run no other commands.
import Conch.Script.Format
import Conch.Script.Lookup
import Conch.Script.Redirection
import Conch.Script.Signals
import Conch.Script.Test

/-!
# Built-in commands

A built-in command changes the shell that runs it or writes something about it. It
gives a status. What it finds wrong may end the script, if the command is special.
-/

namespace Conch

namespace Script

/-! ## Variables -/

/-- Split a word at its first equality sign. -/
def splitAssignment (word : Raw) : Raw × Option Raw :=
  let name := word.toList.takeWhile (· ≠ '=')
  let rest := word.toList.drop name.length
  (String.ofList name, match rest with
    | _ :: value => some (String.ofList value)
    | [] => none)

/-- Mark variables, with values for some, or show those that are marked. -/
def markVariables (command : Raw) (args : List Raw) : ShellM Nat := do
  let readOnly := command = "readonly"
  let isMarked := fun (v : Variable) => if readOnly then v.isReadOnly else v.isExported
  let (options, words) ← takeOptions "p" args
  if !options.isEmpty || words.isEmpty then showVariables (command ++ " ") isMarked
  else
    words.forM fun word => do
      let (name, value) := splitAssignment word
      let s ← get
      match value, s.variableNamed? name with
      | none, some v =>
        set (s.withVariable
          { v with isExported := v.isExported || !readOnly, isReadOnly := v.isReadOnly || readOnly })
      | value, _ => setVariable name value (!readOnly) readOnly
  return 0

/-- Take variables or functions away. -/
def unset (args : List Raw) : ShellM Nat := do
  let (options, names) ← takeOptions "vf" args
  let isFunction := (options.getLast?.map (·.1)) = some 'f'
  names.forM fun name => do
    if isFunction then modify fun s => { s with functions := s.functions.filter (·.1 ≠ name) }
    else setVariable name none false false
  return 0

/-- Make variables local to the function that is run. -/
def localize (words : List Raw) : ShellM Nat := do
  if (← get).saved.isEmpty then trouble "not in a function"
  words.forM fun word => do
    if word = "-" then
      modify fun s =>
        match s.saved with
        | scope :: rest =>
          { s with saved := (("-", some { name := "-", value := some (" ".intercalate s.options) }) :: scope) :: rest }
        | [] => s
    else
      let (name, value) := splitAssignment word
      if !isName name then trouble (name ++ ": bad variable name")
      saveVariable name
      match value with
      | some value => assign name value
      | none => return ()
  return 0

/-- Move the parameters down. -/
def shift (args : List Raw) : ShellM Nat := do
  let n ← match args with
    | word :: _ => number word
    | [] => pure 1
  if (← get).parameters.length < n then trouble "can't shift that many"
  modify fun s => { s with parameters := s.parameters.drop n, optionIndex := 1, optionOffset := none }
  return 0

/-! ## Options of scripts -/

/-- Take the next option from some words. -/
def nextOption (spec : List Char) (name : Raw) (words : List Raw) : ShellM Nat := do
  let s ← get
  let isSilent := spec.head? = some ':'
  let conclude (letter : Char) (index : Nat) (offset : Option Nat) (status : Nat) : ShellM Nat := do
    assign "OPTIND" (toString index)
    assign name (String.ofList [letter])
    modify fun s => { s with optionIndex := index, optionOffset := offset }
    return status
  let index := s.optionIndex
  -- What is left of the word before, if options of it are still to be taken.
  let before := (words[index - 2]?).getD ""
  let left : List Char := match s.optionOffset with
    | some offset => if 2 ≤ index then before.toList.drop offset else []
    | none => []
  let start : Option (List Char × Nat × Raw) :=
    if !left.isEmpty then some (left, index, before)
    else
      match words[index - 1]? with
      | some word =>
        match word.toList with
        | '-' :: c :: cs => if word = "--" then none else some (c :: cs, index + 1, word)
        | _ => none
      | none => none
  match start with
  | none =>
    let isEnd := left.isEmpty && words[index - 1]? = some "--"
    conclude '?' (if isEnd then index + 1 else index) none 1
  | some ([], _, _) => conclude '?' index none 1
  | some (c :: cs, index, word) =>
    let offset := if cs.isEmpty then none else some (word.length - cs.length)
    let offset := if cs.isEmpty then some word.length else offset
    match optionKind? spec c with
    | none =>
      if isSilent then assign "OPTARG" (String.ofList [c])
      else
        putError ("Illegal option -" ++ String.ofList [c] ++ "\n")
        setVariable "OPTARG" none false false
      conclude '?' index offset 0
    | some false =>
      assign "OPTARG" ""
      conclude c index offset 0
    | some true =>
      if !cs.isEmpty then
        assign "OPTARG" (String.ofList cs)
        conclude c index none 0
      else
        match words[index - 1]? with
        | some value =>
          assign "OPTARG" value
          conclude c (index + 1) none 0
        | none =>
          if isSilent then
            assign "OPTARG" (String.ofList [c])
            conclude ':' index none 0
          else
            putError ("No arg for -" ++ String.ofList [c] ++ " option\n")
            setVariable "OPTARG" none false false
            conclude '?' index none 0

/-- Take the next option of a script. -/
def getopts (args : List Raw) : ShellM Nat := do
  match args with
  | spec :: name :: rest =>
    let s ← get
    let words := if rest.isEmpty then s.parameters else rest
    if words.length + 1 < s.optionIndex then set { s with optionIndex := 1, optionOffset := none }
    nextOption spec.toList name words
  | _ => trouble "Usage: getopts optstring var [arg...]"

/-! ## Reading -/

/-- Read a line byte by byte. Gives what was read as stretches, the latest first, and whether the
    line was whole. `fuel` bounds the bytes. -/
def readBytes (source : Source) (isPlain : Bool) : Nat → List Char → List Stretch →
    ShellM (List Stretch × Bool)
  | 0, current, done => return (finish current done, false)
  | fuel + 1, current, done => do
    match ← call (.read source 1) with
    | .ok [b] =>
      let c := Char.ofNat b.toNat
      if b = 0 then readBytes source isPlain fuel current done
      else if c = '\n' then return (finish current done, true)
      else if c = '\\' && !isPlain then readEscaped source isPlain fuel (finish current done)
      else readBytes source isPlain fuel (c :: current) done
    | _ => return (finish current done, false)
where
  /-- Add text in which fields may end. -/
  finish (current : List Char) (done : List Stretch) : List Stretch :=
    ⟨current.reverse.map (Glyph.char · false), .atSeparators⟩ :: done
  /-- Read the byte after a backslash, which means nothing else. -/
  readEscaped (source : Source) (isPlain : Bool) (fuel : Nat) (done : List Stretch) :
      ShellM (List Stretch × Bool) := do
    match fuel with
    | 0 => return (done, false)
    | fuel + 1 =>
      match ← call (.read source 1) with
      | .ok [b] =>
        let c := Char.ofNat b.toNat
        if b = 0 then readEscaped source isPlain fuel done
        else if c = '\n' then readBytes source isPlain fuel [] done
        else readBytes source isPlain fuel [] (⟨[.char c true], .never⟩ :: done)
      | _ => return (done, false)

/-- Set variables to fields one after the other; those that are left become empty. -/
def assignFields : List Raw → List (List Glyph) → ShellM Unit
  | [], _ => return ()
  | name :: names, [] => do
    assign name ""
    assignFields names []
  | name :: names, field :: fields => do
    assign name (textOf field)
    assignFields names fields

/-- Read a line into variables. -/
def readLineInto (args : List Raw) : ShellM Nat := do
  let (options, names) ← takeOptions "p:r" args
  if names.isEmpty then trouble "arg count"
  let s ← get
  let (stretches, isWhole) ← readBytes (s.stream 0).input (options.any (·.1 = 'r')) manyRounds [] []
  assignFields names (breakUp (← get).separators (some names.length) stretches.reverse)
  return if isWhole then 0 else 1

/-! ## The directory -/

/-- Where a path leads by its names alone, seen from a directory. -/
def followNames (here path : Raw) : Raw :=
  let isRooted := path.startsWith "/"
  let start := if isRooted then [] else ((here.splitOn "/").filter (· ≠ "")).reverse
  let names := (path.splitOn "/").foldl (fun (stack : List Raw) name =>
    if name = "" || name = "." then stack
    else if name = ".." then stack.drop 1
    else name :: stack) start
  let both := if isRooted then path else here
  let lead := if both.startsWith "//" && !both.startsWith "///" then "//" else "/"
  lead ++ "/".intercalate names.reverse

/-- The path of the directory as the system knows it. -/
def physicalPath : ShellM (Option Raw) := do
  match ← call (.pathOf (← get).directory) with
  | .ok path => return some (Raw.encode path)
  | .error _ => return none

/-- Note a new path of the directory. -/
def noteDirectory (here : Option Raw) (keepsOld : Bool) : ShellM Unit := do
  let s ← get
  if keepsOld then setVariable "OLDPWD" (some (s.here.getD "")) true false
  let here ← match here with
    | some here => pure (some here)
    | none => physicalPath
  modify fun s => { s with here }
  setVariable "PWD" (some (here.getD "")) true false

/-- Go to a directory. Gives whether that was possible. -/
def enter (isPhysical : Bool) (path : Raw) : ShellM Bool := do
  let s ← get
  let logical := if isPhysical then none
    else if path.startsWith "/" then some (followNames "" path)
    else s.here.map fun here => followNames here path
  match ← call (.enter s.directory (Raw.decode (logical.getD path))) with
  | .error _ => return false
  | .ok directory =>
    set { s with directory, places := s.places.filter fun p => p.2.startsWith "/" }
    noteDirectory logical true
    return true

/-- The first directory of a search path that a name leads to, and whether it is worth showing. -/
def findDirectory (directory : Ino) (name : Raw) : List Raw → Job (Option (Raw × Bool))
  | [] => return none
  | dir :: rest => do
    let path := if dir.isEmpty then name else dir ++ "/" ++ name
    match ← Job.call (.stat directory (Raw.decode path) true) with
    | .ok .dir => return some (path, !dir.isEmpty)
    | _ => findDirectory directory name rest

/-- Go to a directory. -/
def cd (args : List Raw) : ShellM Nat := do
  let (options, operands) ← takeOptions "LP" args
  let isPhysical := (options.getLast?.map (·.1)) = some 'P'
  let s ← get
  let (goal, shows) := match operands with
    | [] => ((s.value? "HOME").getD "", false)
    | "-" :: _ => ((s.value? "OLDPWD").getD "", true)
    | path :: _ => (path, false)
  let isDirect := goal.startsWith "/" || goal = "." || goal = ".." || goal.startsWith "./" || goal.startsWith "../"
  let name := if goal.isEmpty then "." else goal
  let found ← if isDirect then pure none
    else liftM (findDirectory s.directory name (((s.value? "CDPATH").getD "").splitOn ":"))
  let (path, shows) := match found with
    | some (path, isElsewhere) => (path, shows || isElsewhere)
    | none => (if isDirect then goal else name, shows)
  if ← enter isPhysical path then
    if shows then put (((← get).here.getD "") ++ "\n")
    return 0
  else trouble ("can't cd to " ++ name)

/-- Write the path of the directory. -/
def pwd (args : List Raw) : ShellM Nat := do
  let (options, _) ← takeOptions "LP" args
  let isPhysical := (options.getLast?.map (·.1)) = some 'P'
  let path ← if isPhysical then physicalPath else pure (← get).here
  put (path.getD "" ++ "\n")
  return 0

/-! ## The mask and limits -/

/-- The modes that a digit of three bits allows. -/
def modeLetters (n : Nat) : Raw :=
  (if n / 4 % 2 = 1 then "r" else "") ++ (if n / 2 % 2 = 1 then "w" else "") ++ (if n % 2 = 1 then "x" else "")

/-- The bits that letters for classes and modes stand for. -/
def modeBits (classes modes : List Char) : Nat :=
  let per := modes.foldl (fun n c => n ||| (match c with
    | 'r' => 4
    | 'w' => 2
    | 'x' | 'X' => 1
    | _ => 0)) 0
  let everyone := classes.isEmpty || classes.contains 'a'
  (if everyone || classes.contains 'u' then per * 64 else 0) +
    (if everyone || classes.contains 'g' then per * 8 else 0) +
    (if everyone || classes.contains 'o' then per else 0)

/-- Change modes by one clause of letters and signs. `fuel` bounds the signs. -/
def changeModes (classes : List Char) : Nat → List Char → Nat → Option Nat
  | 0, _, modes | _, [], modes => some modes
  | fuel + 1, sign :: cs, modes =>
    let letters := cs.takeWhile ("rwxXst".toList.contains ·)
    let rest := cs.drop letters.length
    let bits := modeBits classes letters
    let all := modeBits classes ['r', 'w', 'x']
    match sign with
    | '+' => changeModes classes fuel rest (modes ||| bits)
    | '-' => changeModes classes fuel rest (modes &&& (511 ^^^ bits))
    | '=' => changeModes classes fuel rest ((modes &&& (511 ^^^ all)) ||| bits)
    | _ => none

/-- The mask after some clauses. -/
def changedMask? (mask : Nat) (text : Raw) : Option Nat :=
  (text.splitOn ",").foldlM (fun mask clause =>
    let classes := clause.toList.takeWhile ("ugoa".toList.contains ·)
    let rest := clause.toList.drop classes.length
    if rest.isEmpty then none
    else (changeModes classes (rest.length + 1) rest (511 ^^^ mask)).map (511 ^^^ ·)) mask

/-- Show or set the mask for the modes of new files. -/
def umask (args : List Raw) : ShellM Nat := do
  let (options, operands) ← takeOptions "S" args
  let mask := (← get).mask
  match operands with
  | [] =>
    if options.isEmpty then
      let digits := Nat.toDigits 8 mask
      put (String.ofList (List.replicate (4 - digits.length) '0' ++ digits) ++ "\n")
    else
      let allowed := 511 ^^^ mask
      put ("u=" ++ modeLetters (allowed / 64) ++ ",g=" ++ modeLetters (allowed / 8 % 8) ++ ",o=" ++
        modeLetters (allowed % 8) ++ "\n")
    return 0
  | word :: _ =>
    if (word.toList.head?.map Char.isDigit).getD false then
      if !word.toList.all (Number.isDigitIn 8) then badNumber word
      let n := word.toList.foldl (fun n c => n * 8 + (c.toNat - 48)) 0
      modify fun s => { s with mask := n % 512 }
    else
      match changedMask? mask word with
      | some mask => modify fun s => { s with mask }
      | none => trouble ("Illegal mode: " ++ word)
    return 0

/-- Show a limit; none is set. -/
def ulimit (args : List Raw) : ShellM Nat := do
  let (_, operands) ← takeOptions "HSatfdsmcnpvwr" args
  match operands with
  | [] =>
    put "unlimited\n"
    return 0
  | word :: _ =>
    if word = "unlimited" || word.toList.all Char.isDigit then return 0 else trouble "bad number"

/-! ## Leaving -/

/-- Leave loops, or go on with their next round. -/
def leaveLoops (skip : Skip) (args : List Raw) : ShellM Nat := do
  let n ← match args with
    | word :: _ => do
      let n ← number word
      if n = 0 then badNumber word
      pure n
    | [] => pure 1
  let s ← get
  let n := min n s.loops
  if 0 < n then set { s with skip, skipCount := n }
  return 0

/-- Leave a function or a file. -/
def giveBack (args : List Raw) : ShellM Nat := do
  match args with
  | word :: _ =>
    let n ← number word
    modify fun s => { s with skip := .back }
    return n
  | [] =>
    modify fun s => { s with skip := .backAsIs }
    return (← get).status

/-- End the shell. -/
def exit (args : List Raw) : ShellM Nat := do
  match args with
  | word :: _ =>
    let n ← number word
    modify fun s => { s with kept := some n }
  | [] => pure ()
  throw .request

/-! ## All of them -/

/-- Run a built-in command by its name, if it is one that runs no other commands. -/
def builtin? (name : Raw) : Option (List Raw → ShellM Nat) :=
  match name with
  | ":" | "true" => some fun _ => return 0
  | "false" => some fun _ => return 1
  | "[" | "test" => some (Test.test name)
  | "echo" => some Format.echo
  | "printf" => some Format.printf
  | "alias" => some setAliases
  | "unalias" => some dropAliases
  | "break" => some (leaveLoops .leave)
  | "continue" => some (leaveLoops .again)
  | "return" => some giveBack
  | "exit" => some exit
  | "cd" | "chdir" => some cd
  | "pwd" => some pwd
  | "command" => some describeCommand
  | "export" | "readonly" => some (markVariables name)
  | "unset" => some unset
  | "local" => some localize
  | "set" => some setShell
  | "shift" => some shift
  | "getopts" => some getopts
  | "read" => some readLineInto
  | "hash" => some hash
  | "type" => some typeOf
  | "trap" => some trap
  | "kill" => some kill
  | "wait" => some wait
  | "jobs" => some fun _ => return 0
  | "fg" | "bg" => some fun _ => trouble "No current job"
  | "umask" => some umask
  | "ulimit" => some ulimit
  | "times" => some fun _ => do
    put "0m0.000000s 0m0.000000s\n0m0.000000s 0m0.000000s\n"
    return 0
  | _ => none

end Script

end Conch
