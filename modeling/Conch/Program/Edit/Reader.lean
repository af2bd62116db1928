-- SUMMARY: Reading scripts of editing commands.
import Conch.Pattern.Notation
import Conch.Program.Edit.Command
import Conch.Program.Number

/-!
# Reading scripts

A script is read character by character. What is wrong with it is told together
with how many characters had been read.
-/

namespace Conch

namespace Edit

/-- Where a part of a script comes from: a file, or the argument with a number. -/
inductive Origin where
  | file (name : Raw)
  | argument (n : Nat)
  deriving DecidableEq, Repr

/-- Why a script makes no sense. -/
structure ScriptError where
  reason : Raw
  origin : Origin
  /-- How many characters had been read; nothing if the place does not matter. -/
  place : Option Nat := none
  /-- The line that was being read. -/
  line : Nat := 0
  /-- The whole message, without the place before it. -/
  isBare : Bool := false
  /-- The files that had been named for writing. -/
  files : List String := []

/-- A block that is open, and where it was opened. -/
structure OpenBlock where
  start : Nat
  origin : Origin
  line : Nat
  deriving Repr

/-- How far reading has come. -/
structure Reading where
  origin : Origin := .argument 0
  rest : List Char := []
  used : Nat := 0
  line : Nat := 1
  commands : Array Command := #[]
  blocks : List OpenBlock := []
  labels : List (Raw × Nat) := []
  /-- The places of jumps, with their labels. -/
  jumps : List (Nat × Raw) := []
  files : List String := []
  silent : Bool := false
  /-- This is the first part of the script. -/
  isFirst : Bool := true

/-- How patterns are written. -/
structure ReadStyle where
  extended : Bool := false

/-- A reader of a part of a script. -/
abbrev Reader := ReaderT ReadStyle (StateT Reading (Except ScriptError))

/-! ## Characters -/

/-- End with a reason. -/
def bad {α : Type} (reason : Raw) : Reader α := do
  let r ← get
  throw { reason, origin := r.origin, place := some r.used, line := r.line, files := r.files }

/-- The next character, which is then read. -/
def next? : Reader (Option Char) := do
  let r ← get
  match r.rest with
  | [] => return none
  | c :: rest =>
    set { r with rest, used := r.used + 1, line := if c = '\n' then r.line + 1 else r.line }
    return some c

/-- The next character, which is not read yet. -/
def peek? : Reader (Option Char) := return (← get).rest.head?

/-- A space or a tab. -/
def isBlank (c : Char) : Bool := c = ' ' || c = '\t'

/-- Read characters as long as a test accepts them. -/
def takeWhile (test : Char → Bool) : Reader (List Char) := do
  let r ← get
  let taken := r.rest.takeWhile test
  set { r with rest := r.rest.drop taken.length, used := r.used + taken.length,
               line := r.line + taken.count '\n' }
  return taken

/-- Skip blanks. -/
def skipBlanks : Reader Unit := do
  let _ ← takeWhile isBlank

/-- A number. -/
def number : Reader Nat := return Number.ofDigits (← takeWhile Char.isDigit)

/-! ## Delimited texts -/

/-- Where a text is inside brackets. -/
inductive InBracket where
  | outside
  /-- Right behind the opening bracket, or the caret after it. -/
  | start (afterCaret : Bool)
  | inside
  /-- In a named part that a mark ends. -/
  | named (mark : Char)
  /-- Before the bracket that closes a named part. -/
  | closing
  deriving DecidableEq, Repr

/-- How a character changes where a text is; the character after it is given too. -/
def InBracket.after (b : InBracket) (c : Char) (following : Option Char) : InBracket :=
  let enter := match following with
    | some m => if c = '[' && (m = ':' || m = '.' || m = '=') then .named m else .inside
    | none => .inside
  match b with
  | .outside => if c = '[' then .start false else .outside
  | .start false => if c = '^' then .start true else enter
  | .start true => enter
  | .inside => if c = ']' then .outside else enter
  | .named mark => if c = mark && following = some ']' then .closing else .named mark
  | .closing => .inside

/-- The text up to a delimiter. A backslash before the delimiter is dropped, and in a pattern an
    `n` after a backslash is a line end. Nothing if there is no delimiter. `fuel` bounds the
    characters. -/
def upTo (delimiter : Char) (isPattern : Bool) : Nat → InBracket → List Char → Reader (Option (List Char))
  | 0, _, _ => return none
  | fuel + 1, b, taken => do
    match ← peek? with
    | none => return none
    | some '\n' => return none
    | some c =>
      let _ ← next?
      if c = delimiter && b = .outside then return some taken.reverse
      else if c = '\\' then
        match ← peek? with
        | none => return none
        | some d =>
          if b ≠ .outside then
            if d = 'n' then
              let _ ← next?
              upTo delimiter isPattern fuel (b.after 'n' none) ('\n' :: taken)
            else upTo delimiter isPattern fuel (b.after '\\' (some d)) ('\\' :: taken)
          else
            let _ ← next?
            if d = 'n' && isPattern then upTo delimiter isPattern fuel b ('n' :: '\\' :: taken)
            else if d = '\n' then upTo delimiter isPattern fuel b (if isPattern then '\n' :: taken else '\n' :: '\\' :: taken)
            else if d = delimiter && (isPattern || d ≠ '&') then upTo delimiter isPattern fuel b (d :: taken)
            else upTo delimiter isPattern fuel b (d :: '\\' :: taken)
      else
        let following ← peek?
        upTo delimiter isPattern fuel (if isPattern then b.after c following else .outside) (c :: taken)

/-- The text up to a delimiter. -/
def delimited? (delimiter : Char) (isPattern : Bool) : Reader (Option (List Char)) := do
  upTo delimiter isPattern ((← get).rest.length + 1) .outside []

/-! ## Escapes -/

/-- The control character that a letter stands for. -/
def control? : Char → Option Char
  | 'a' => some '\x07'
  | 'f' => some '\x0c'
  | 'n' => some '\n'
  | 'r' => some '\r'
  | 't' => some '\t'
  | 'v' => some '\x0b'
  | _ => none

/-- The character that digits after a letter give, and what follows them. -/
def byNumber? (c : Char) (rest : List Char) : Option (Char × List Char) :=
  let base := if c = 'd' then 10 else if c = 'o' then 8 else 16
  let width := if c = 'x' then 2 else 3
  let digits := (rest.take width).takeWhile (Number.isDigitIn base)
  match Number.digitsIn? base digits with
  | some (n, _) => some (Char.ofNat (n % 256), rest.drop digits.length)
  | none => none

/-- The character that an escape gives, and what follows it; the text starts after the backslash. -/
def escape? (cs : List Char) : Option (Char × List Char) :=
  match cs with
  | 'c' :: d :: rest => some (Char.ofNat (d.toUpper.toNat ^^^ 64), rest)
  | c :: rest =>
    if c = 'd' || c = 'o' || c = 'x' then byNumber? c rest
    else (control? c).map fun d => (d, rest)
  | [] => none

/-- The characters that mean something else in a pattern. -/
def isSpecial (c : Char) : Bool := "$*.[\\]^".toList.contains c

/-- Replace the escapes for characters in a pattern. `fuel` bounds the characters. -/
def expandPattern : Nat → InBracket → List Char → List Char
  | 0, _, cs => cs
  | _ + 1, _, [] => []
  | fuel + 1, b, '\\' :: rest =>
    match escape? rest with
    | some (c, after) =>
      let isNumber := rest.head? ≠ some 'n' && (control? (rest.headD ' ')).isNone
      if b = .outside && isNumber && isSpecial c then '\\' :: c :: expandPattern fuel b after
      else c :: expandPattern fuel (b.after 'n' none) after
    | none =>
      if b = .outside then
        match rest with
        | c :: after => '\\' :: c :: expandPattern fuel b after
        | [] => ['\\']
      else '\\' :: expandPattern fuel (b.after '\\' rest.head?) rest
  | fuel + 1, b, c :: rest => c :: expandPattern fuel (b.after c rest.head?) rest

/-- Replace the escapes in a text and drop the backslashes before other characters. -/
def expandText : Nat → List Char → List Char
  | 0, cs => cs
  | _ + 1, [] => []
  | _ + 1, ['\\'] => []
  | fuel + 1, '\\' :: c :: rest =>
    match escape? (c :: rest) with
    | some (d, after) => d :: expandText fuel after
    | none => c :: expandText fuel rest
  | fuel + 1, c :: rest => c :: expandText fuel rest

/-- The parts of a text that takes the place of a match. `fuel` bounds the characters. -/
def parts : Nat → List Char → List Part
  | 0, _ => []
  | _ + 1, [] => []
  | fuel + 1, '&' :: rest => .group 0 :: parts fuel rest
  | fuel + 1, '\\' :: c :: rest =>
    if c.isDigit then .group (c.toNat - 48) :: parts fuel rest
    else
      match c with
      | 'U' => .case .upper :: parts fuel rest
      | 'L' => .case .lower :: parts fuel rest
      | 'E' => .case .asIs :: parts fuel rest
      | 'u' => .case .upperNext :: parts fuel rest
      | 'l' => .case .lowerNext :: parts fuel rest
      | _ =>
        match escape? (c :: rest) with
        | some (d, after) => .bytes [d.toNat.toUInt8] :: parts fuel after
        | none => .bytes [c.toNat.toUInt8] :: parts fuel rest
  | fuel + 1, c :: rest => .bytes [c.toNat.toUInt8] :: parts fuel rest

/-- The highest group that a text refers to. -/
def highestGroup (list : List Part) : Nat :=
  list.foldl (fun n p => match p with
    | .group i => max n i
    | _ => n) 0

/-! ## Expressions and addresses -/

/-- The number of groups in a pattern. -/
def groupCount : Pattern → Nat
  | .append p q | .either p q => max (groupCount p) (groupCount q)
  | .times p _ _ => groupCount p
  | .group i p => max i (groupCount p)
  | _ => 0

/-- Read a pattern; an empty one stands for the one that was used last. -/
def expression (text : List Char) (fold hasLines : Bool) (needed : Nat) : Reader (Option Expression) := do
  if text.isEmpty then
    if fold || hasLines then bad "cannot specify modifiers on empty regexp" else return none
  else
    let style ← read
    let text := expandPattern (text.length + 1) .outside text
    match Pattern.parse { extended := style.extended, fold, strict := true, hasLines } (String.ofList text) with
    | .error .confusingClass =>
      let r ← get
      throw
        { reason := Pattern.NotationError.confusingClass.message, origin := r.origin, isBare := true
          files := r.files }
    | .error e => bad e.message
    | .ok pattern =>
      if groupCount pattern < needed then
        bad ("invalid reference \\" ++ toString needed ++ " on \x60s' command's RHS")
      else return some { pattern, hasLines }

/-- Read the letters after the pattern of an address. `fuel` bounds their number. -/
def modifiers : Nat → Bool → Bool → Reader (Bool × Bool)
  | 0, fold, hasLines => return (fold, hasLines)
  | fuel + 1, fold, hasLines => do
    skipBlanks
    match ← peek? with
    | some 'I' =>
      let _ ← next?
      modifiers fuel true hasLines
    | some 'M' =>
      let _ ← next?
      modifiers fuel fold true
    | _ => return (fold, hasLines)

/-- Read an address, if there is one. -/
def address? : Reader (Option Address) := do
  match ← peek? with
  | some '/' | some '\\' =>
    let c ← next?
    let delimiter ← if c = some '\\' then next? else pure c
    match delimiter with
    | none => bad "unterminated address regex"
    | some d =>
      match ← delimited? d true with
      | none => bad "unterminated address regex"
      | some text =>
        let (fold, hasLines) ← modifiers 1000 false false
        return some (.matching (← expression text fold hasLines 0))
  | some '$' =>
    let _ ← next?
    return some .lastLine
  | some c =>
    if c.isDigit then
      let n ← number
      skipBlanks
      if (← peek?) = some '~' then
        let _ ← next?
        skipBlanks
        let step ← number
        return some (if step = 0 then .number n else .every n step)
      else return some (.number n)
    else if c = '+' || c = '~' then
      let _ ← next?
      skipBlanks
      let n ← number
      return some (if c = '+' then .plus n else .multiple n)
    else return none
  | none => return none

/-! ## Commands -/

/-- Check that nothing follows a command. -/
def endOfCommand : Reader Unit := do
  skipBlanks
  match ← peek? with
  | none | some '\x7d' | some '#' => return ()
  | some c =>
    let _ ← next?
    if c = '\n' || c = ';' then return () else bad "extra characters after command"

/-- The name of a file up to the end of the line. -/
def filePath : Reader Raw := do
  skipBlanks
  let name ← takeWhile (· ≠ '\n')
  let _ ← next?
  if name.isEmpty then bad "missing filename in r/R/w/W commands"
  return String.ofList name

/-- The target that a file name stands for. -/
def target : Reader Target := do
  match ← filePath with
  | "/dev/stdout" => return .stdout
  | "/dev/stderr" => return .stderr
  | name =>
    let name := Raw.decode name
    let r ← get
    match r.files.idxOf? name with
    | some i => return .file i
    | none =>
      set { r with files := r.files ++ [name] }
      return .file r.files.length

/-- The text of a command up to a line end without a backslash before it. `fuel` bounds the
    characters. -/
def textLines : Nat → List Char → Reader (List Char)
  | 0, taken => return taken.reverse
  | fuel + 1, taken => do
    match ← next? with
    | none | some '\n' => return taken.reverse
    | some '\\' =>
      match ← next? with
      | none => return taken.reverse
      | some c => textLines fuel (c :: '\\' :: taken)
    | some c => textLines fuel (c :: taken)

/-- The text that a command adds. -/
def addedText : Reader Bytes := do
  skipBlanks
  let fuel := (← get).rest.length + 1
  match ← peek? with
  | none => bad "expected \\ after \x60a', \x60c' or \x60i'"
  | some '\\' =>
    let _ ← next?
    let blanks ← takeWhile isBlank
    match ← peek? with
    | none => return []
    | some '\n' =>
      let _ ← next?
      let text ← textLines fuel []
      return Raw.bytes (String.ofList (expandText fuel text ++ ['\n']))
    | some _ =>
      let text ← textLines fuel blanks.reverse
      return Raw.bytes (String.ofList (expandText fuel text ++ ['\n']))
  | some _ =>
    let text ← textLines fuel []
    return Raw.bytes (String.ofList (expandText fuel text ++ ['\n']))

/-- The flags of a substitution. -/
structure Flags where
  nth : Option Nat := none
  all : Bool := false
  fold : Bool := false
  hasLines : Bool := false
  print : Bool := false
  target : Option Target := none

/-- Read the flags of a substitution. `fuel` bounds their number. -/
def flags : Nat → Flags → Reader Flags
  | 0, f => return f
  | fuel + 1, f => do
    match ← peek? with
    | none | some '\x7d' | some '#' => return f
    | some c =>
      if c.isDigit then
        if f.nth.isSome then
          let _ ← next?
          bad "multiple number options to \x60s' command"
        let n ← number
        if n = 0 then bad "number option to \x60s' command may not be zero"
        flags fuel { f with nth := some n }
      else
        let _ ← next?
        match c with
        | '\n' | ';' => return f
        | 'i' | 'I' => flags fuel { f with fold := true }
        | 'm' | 'M' => flags fuel { f with hasLines := true }
        | 'e' => flags fuel f
        | 'p' =>
          if f.print then bad "multiple \x60p' options to \x60s' command"
          flags fuel { f with print := true }
        | 'g' =>
          if f.all then bad "multiple \x60g' options to \x60s' command"
          flags fuel { f with all := true }
        | 'w' => return { f with target := some (← target) }
        | ' ' | '\t' =>
          skipBlanks
          match ← peek? with
          | none | some '\x7d' | some '#' | some '\n' | some ';' => flags fuel f
          | some _ =>
            let _ ← next?
            bad "unknown option to \x60s'"
        | _ => bad "unknown option to \x60s'"

/-- Read a substitution. -/
def substitution : Reader Action := do
  match ← next? with
  | none => bad "unterminated \x60s' command"
  | some delimiter =>
    if delimiter = '\n' || delimiter = '\\' then bad "unterminated \x60s' command"
    match ← delimited? delimiter true with
    | none => bad "unterminated \x60s' command"
    | some pattern =>
      match ← delimited? delimiter false with
      | none => bad "unterminated \x60s' command"
      | some text =>
        let list := parts (text.length + 1) text
        let f ← flags ((← get).rest.length + 1) {}
        let e ← expression pattern f.fold f.hasLines (highestGroup list)
        return .substitute
          { expression := e, parts := list, nth := f.nth.getD 1, all := f.all, print := f.print, target := f.target }

/-- The characters of one side of a transliteration. -/
def transliterationSide : List Char → List Char
  | [] => []
  | '\\' :: '\\' :: rest => '\\' :: transliterationSide rest
  | '\\' :: 'n' :: rest => '\n' :: transliterationSide rest
  | '\\' :: '\n' :: rest => '\n' :: transliterationSide rest
  | '\\' :: c :: rest =>
    match control? c with
    | some d => d :: transliterationSide rest
    | none => '\\' :: c :: transliterationSide rest
  | c :: rest => c :: transliterationSide rest

/-- Read a transliteration. -/
def transliteration : Reader Action := do
  match ← next? with
  | none => bad "unterminated \x60y' command"
  | some delimiter =>
    match ← delimited? delimiter false with
    | none => bad "unterminated \x60y' command"
    | some source =>
      match ← delimited? delimiter false with
      | none => bad "unterminated \x60y' command"
      | some goal =>
        let source := transliterationSide source
        let goal := transliterationSide goal
        if source.length ≠ goal.length then bad "strings for \x60y' command are different lengths"
        endOfCommand
        return .transliterate (source.zip goal |>.map fun (a, b) => (a.toNat.toUInt8, b.toNat.toUInt8))

/-- A label. -/
def label (endsAtBrace : Bool) : Reader Raw := do
  skipBlanks
  let name ← takeWhile fun c => !Number.isBlank c && c ≠ ';' && !(endsAtBrace && c = '\x7d')
  return String.ofList name

/-- Add a command. -/
def add (c : Command) : Reader Unit :=
  modify fun r => { r with commands := r.commands.push c }

/-- Read what a command does from its letter on. -/
def action (c : Command) (letter : Char) : Reader Unit := do
  let plain (a : Action) : Reader Unit := do
    endOfCommand
    add { c with action := a }
  let place := (← get).commands.size
  match letter with
  | '\x7b' =>
    modify fun r => { r with blocks := ⟨place, r.origin, r.line⟩ :: r.blocks }
    add { c with action := .block 0 }
  | '\x7d' =>
    match (← get).blocks with
    | [] => bad "unexpected \x60\x7d'"
    | b :: rest =>
      if c.first.isSome then bad "\x60\x7d' doesn't want any addresses"
      endOfCommand
      modify fun r =>
        { r with blocks := rest, commands := r.commands.modify b.start fun d => { d with action := .block place } }
      add { c with action := .nothing }
  | 'a' => add { c with action := .append (← addedText) }
  | 'i' => add { c with action := .insert (← addedText) }
  | 'c' => add { c with action := .change (← addedText) }
  | ':' =>
    if c.first.isSome then bad ": doesn't want any addresses"
    let name ← label false
    if name.isEmpty then bad "\":\" lacks a label"
    modify fun r => { r with labels := (name, place) :: r.labels }
    add { c with action := .nothing }
  | 'b' | 't' | 'T' =>
    let name ← label true
    endOfCommand
    modify fun r => { r with jumps := (place, name) :: r.jumps }
    add { c with action := .jump (if letter = 'b' then .always else if letter = 't' then .replaced else .notReplaced) 0 }
  | 'q' | 'Q' =>
    if c.second.isSome then bad "command only uses one address"
    skipBlanks
    let code ← number
    plain (if letter = 'q' then .quit (code % 256) else .quitSilently (code % 256))
  | 'l' | 'L' =>
    skipBlanks
    let digits ← takeWhile Char.isDigit
    plain (.list (if digits.isEmpty then none else some (Number.ofDigits digits)))
  | '=' => plain .lineNumber
  | 'd' => plain .delete
  | 'D' => plain .deleteFirst
  | 'F' => plain .fileName
  | 'g' => plain .get
  | 'G' => plain .getAppend
  | 'h' => plain .hold
  | 'H' => plain .holdAppend
  | 'n' => plain .next
  | 'N' => plain .nextAppend
  | 'p' => plain .print
  | 'P' => plain .printFirst
  | 'x' => plain .exchange
  | 'z' => plain .zap
  | 'e' =>
    let _ ← takeWhile (· ≠ '\n')
    add { c with action := .nothing }
  | 'r' => add { c with action := .readFile (Raw.decode (← filePath)) }
  | 'R' => add { c with action := .readLine (Raw.decode (← filePath)) }
  | 'w' => add { c with action := .write (← target) }
  | 'W' => add { c with action := .writeFirst (← target) }
  | 's' => add { c with action := ← substitution }
  | 'y' => add { c with action := ← transliteration }
  | letter => bad ("unknown command: \x60" ++ String.ofList [letter] ++ "'")

/-- Read a comment. One that begins the script may ask for silence. -/
def comment : Reader Unit := do
  let r ← get
  let text ← takeWhile (· ≠ '\n')
  if r.isFirst && r.used = 1 && text = ['n'] then modify fun r => { r with silent := true }

/-- Read one command with its addresses. -/
def command : Reader Unit := do
  let first ← address?
  match first with
  | some (.plus _) | some (.multiple _) => bad "invalid usage of +N or ~N as first address"
  | _ => pure ()
  if first.isSome then skipBlanks
  let second ← if first.isSome && (← peek?) = some ',' then do
      let _ ← next?
      skipBlanks
      match ← address? with
      | some a => pure (some a)
      | none =>
        let _ ← next?
        bad "unexpected \x60,'"
    else pure none
  if second.isSome then skipBlanks
  let letter ← next?
  let isZero := match first with
    | some (.number 0) => true
    | _ => false
  let endsByMatch := match second with
    | some (.matching _) => true
    | _ => false
  if isZero && !endsByMatch then bad "invalid usage of line address 0"
  let (negated, letter) ← if letter = some '!' then do
      skipBlanks
      let letter ← next?
      if letter = some '!' then bad "multiple \x60!'s"
      pure (true, letter)
    else pure (false, letter)
  match letter with
  | none => bad "missing command"
  | some '#' => if first.isSome then bad "comments don't accept any addresses" else comment
  | some 'v' =>
    let name ← label true
    endOfCommand
    if 4 < ((name.splitOn ".").headD "").length || name > "4.9" then bad "expected newer version of sed"
  | some letter => action { first, second, negated } letter

/-- Read commands to the end. `fuel` bounds their number. -/
def commands : Nat → Reader Unit
  | 0 => return ()
  | fuel + 1 => do
    let _ ← takeWhile fun c => c = ';' || Number.isBlank c
    if (← peek?).isNone then return ()
    command
    commands fuel

/-- Close a script: all blocks have to be closed, and all labels have to be there. -/
def finish (r : Reading) : Except ScriptError Script := do
  if let b :: _ := r.blocks then
    throw { reason := "unmatched \x60\x7b'", origin := b.origin, place := some 0, line := b.line, files := r.files }
  let all ← r.jumps.reverse.foldlM (fun (cs : Array Command) (place, name) => do
    let goal ← if name.isEmpty then pure cs.size
      else
        match r.labels.lookup name with
        | some goal => pure goal
        | none =>
          throw
            { reason := "can't find label for jump to \x60" ++ name ++ "'", origin := r.origin, isBare := true
              files := r.files }
    return cs.modify place fun c => { c with action := match c.action with
      | .jump when _ => .jump when goal
      | a => a }) r.commands
  return { commands := all, files := r.files, silent := r.silent }

/-- Read one part of a script after others. -/
def readPart (style : ReadStyle) (before : Reading) (origin : Origin) (text : Raw) :
    Except ScriptError Reading := do
  let start := { before with origin, rest := text.toList, used := 0, line := 1 }
  let ((), r) ← ((commands (text.length + 1)).run style).run start
  return { r with isFirst := false }

end Edit

end Conch
