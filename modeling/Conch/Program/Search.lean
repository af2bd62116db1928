-- SUMMARY: The program grep, which picks lines by patterns.
import Conch.Pattern.Notation
import Conch.Program.Arguments
import Conch.Program.FileName
import Conch.Program.Filter

/-!
# Searching

A line is picked if it has a match of any of the patterns, or, turned round, if
it has none. Lines around picked ones can be written with them. The code tells
whether a line was picked, and whether something went wrong.
-/

namespace Conch

namespace Search

/-! ## Requests -/

/-- Which part of a line a match has to be. -/
inductive Extent where
  | anywhere
  | words
  | line
  deriving DecidableEq, Repr

/-- How texts are read as patterns. -/
inductive PatternKind where
  | basic
  | extended
  | fixed
  deriving DecidableEq, Repr

/-- What is written about an input. -/
inductive Report where
  | lines
  | parts
  | count
  /-- The names of inputs with a picked line. -/
  | names
  /-- The names of inputs without one. -/
  | otherNames
  | nothing
  deriving DecidableEq, Repr

/-- What is done with directories. -/
inductive DirectoryUse where
  | read
  | skip
  | recurse
  deriving DecidableEq, Repr

/-- What is looked for, and what is written about it. -/
structure Request where
  pattern : Pattern := .empty
  /-- There is no pattern at all. -/
  isEmpty : Bool := false
  extent : Extent := .anywhere
  invert : Bool := false
  report : Report := .lines
  most : Option Nat := none
  before : Option Nat := none
  after : Option Nat := none
  separator : Option Raw := some "--"
  labels : Bool := false
  numbers : Bool := false
  offsets : Bool := false
  tab : Bool := false
  zeroNames : Bool := false
  eol : UInt8 := 10
  isText : Bool := false
  skipBinary : Bool := false
  silent : Bool := false
  label : Raw := "(standard input)"
  directories : DirectoryUse := .read

/-- Whether a stretch stands apart from other words. -/
def standsApart (s : Pattern.Subject) (start stop : Nat) : Bool :=
  !(0 < start && s.isWordAt (start - 1)) && !s.isWordAt stop

/-- The first stretch from one of the next so many places that matches and stands apart. -/
def wordFrom (s : Pattern.Subject) (p : Pattern) : Nat → Nat → Option Pattern.Found
  | 0, _ => none
  | n + 1, i =>
    match (p.endsFrom s i).reverse with
    | [] => wordFrom s p n (i + 1)
    | longest :: shorter =>
      match (longest :: shorter.filter (i < ·)).find? (standsApart s i) with
      | some stop => some ⟨i, stop⟩
      | none => wordFrom s p n (i + 1)

/-- The first match in a line from a place on. -/
def Request.find? (r : Request) (s : Pattern.Subject) (start : Nat) : Option Pattern.Found :=
  if r.isEmpty then none
  else
    match r.extent with
    | .anywhere => r.pattern.search s start
    | .line => if start = 0 && r.pattern.matchesAll s then some ⟨0, s.size⟩ else none
    | .words => wordFrom s r.pattern (s.size + 1 - start) start

/-- Whether a line is picked. -/
def Request.picks (r : Request) (line : Bytes) : Bool :=
  let s : Pattern.Subject := { text := line.toArray }
  let found := match r.extent with
    | .anywhere => !r.isEmpty && r.pattern.matchesIn s
    | .line => !r.isEmpty && r.pattern.matchesAll s
    | .words => (r.find? s 0).isSome
  found != r.invert

/-- The matches in a line from a place on, with their offsets, empty ones left out. `fuel` bounds
    their number. -/
def Request.parts (r : Request) (s : Pattern.Subject) : Nat → Nat → List (Nat × Bytes)
  | 0, _ => []
  | fuel + 1, start =>
    if s.size < start then []
    else
      match r.find? s start with
      | none => []
      | some f =>
        if f.stop = f.start then r.parts s fuel (f.start + 1)
        else (f.start, s.slice f.start f.stop) :: r.parts s fuel f.stop

/-! ## Writing -/

/-- A line with its number and the offset of its start. -/
structure Numbered where
  number : Nat
  offset : Nat
  text : Bytes

/-- A number with blanks before it up to a width. -/
def padded (width n : Nat) : Raw :=
  let digits := toString n
  String.ofList (List.replicate (width - digits.length) ' ') ++ digits

/-- What stands before a line. -/
def Request.heading (r : Request) (name : Raw) (mark : Raw) (number offset : Nat) : Bytes :=
  let named := if r.labels then (if r.zeroNames then name ++ "\x00" else name ++ mark) else ""
  let numbered := if r.numbers then (if r.tab then padded 4 number else toString number) ++ mark else ""
  let placed := if r.offsets then (if r.tab then padded 6 offset else toString offset) ++ mark else ""
  let all := named ++ numbered ++ placed
  Raw.bytes (if r.tab && !all.isEmpty then all ++ "\t" else all)

/-- How a search in one input stands. -/
structure Progress where
  number : Nat := 0
  offset : Nat := 0
  picked : Nat := 0
  /-- The latest lines that were not written, the latest first. -/
  before : List Numbered := []
  /-- How many lines are still to be written after a picked one. -/
  after : Nat := 0
  /-- The last line that was written. -/
  shown : Option Nat := none
  /-- Something was written at all, also for other inputs. -/
  wrote : Bool := false
  /-- How many bytes of the input were dealt with up to the last picked line. -/
  used : Nat := 0

/-- Write one line. -/
def Request.line (r : Request) (name mark : Raw) (l : Numbered) : Bytes :=
  r.heading name mark l.number l.offset ++ l.text ++ [r.eol]

/-- Write a picked line with the lines before it. -/
def Request.show (r : Request) (name : Raw) (p : Progress) (l : Numbered) : Progress × Bytes :=
  let context := p.before.reverse
  let first := (context.head?.map (·.number)).getD l.number
  let isGap := p.wrote && (r.before.isSome || r.after.isSome) &&
    (match p.shown with
      | some k => k + 1 ≠ first
      | none => true)
  let gap := match r.separator with
    | some text => if isGap then Raw.bytes text ++ [10] else []
    | none => []
  let around := context.flatMap fun c => if r.report = .parts then [] else r.line name "-" c
  let own :=
    if r.report = .parts then
      if r.invert then []
      else
        (r.parts { text := l.text.toArray } (l.text.length + 2) 0).flatMap fun (start, part) =>
          r.heading name ":" l.number (l.offset + start) ++ part ++ [r.eol]
    else r.line name ":" l
  ({ p with before := [], after := r.after.getD 0, shown := some l.number, wrote := true }, gap ++ around ++ own)

/-- Deal with a line that is not picked. -/
def Request.pass (r : Request) (name : Raw) (p : Progress) (l : Numbered) : Progress × Bytes :=
  if 0 < p.after then
    ({ p with after := p.after - 1, shown := some l.number },
      if r.report = .parts then [] else r.line name "-" l)
  else ({ p with before := (l :: p.before).take (r.before.getD 0) }, [])

/-- Whether the first picked line settles the input. -/
def Request.isSettledByOne (r : Request) : Bool :=
  r.report = .names || r.report = .otherNames || r.report = .nothing

/-- Deal with a line. Gives whether more lines are wanted. -/
def Request.step (r : Request) (name : Raw) (p : Progress) (text : Bytes) : Progress × Bytes × Bool :=
  let l : Numbered := ⟨p.number + 1, p.offset, text⟩
  let p := { p with number := p.number + 1, offset := p.offset + text.length + 1 }
  let isFull := match r.most with
    | some most => most ≤ p.picked
    | none => false
  if !isFull && r.picks text then
    let p := { p with picked := p.picked + 1, used := p.offset }
    if r.report = .lines || r.report = .parts then
      let (p, out) := r.show name p l
      let isDone := (match r.most with
        | some most => decide (most ≤ p.picked)
        | none => false) && p.after = 0
      (p, out, !isDone)
    else
      let isDone := r.isSettledByOne || (match r.most with
        | some most => decide (most ≤ p.picked)
        | none => false)
      (p, [], !isDone)
  else if r.report = .lines || r.report = .parts then
    let (p, out) := r.pass name p l
    (p, out, !(isFull && p.after = 0))
  else (p, [], true)

/-! ## Inputs -/

/-- Whether some bytes are no text. -/
def isBinary (r : Request) (data : Bytes) : Bool :=
  r.eol = 10 && !r.isText && data.contains 0

/-- How searching the inputs stands. -/
structure Total where
  picked : Bool := false
  failed : Bool := false
  wrote : Bool := false

/-- Search one chunk after the other. `binary` tells that the input is no text, so that nothing of
    it is written and zero bytes end lines as well. -/
def Request.pump (r : Request) (source : Source) (name : Raw) :
    Nat → Progress → Bytes → Bool → Nat → Act (Except Errno Unit × Progress × Bool × Nat)
  | 0, p, _, binary, total => return (.ok (), p, binary, total)
  | fuel + 1, p, pending, binary, total => do
    match ← Act.call (.read source 32768) with
    | .error e => return (.error e, p, binary, total)
    | .ok data =>
      let total := total + data.length
      let binary := binary || isBinary r data
      if binary && r.skipBinary then return (.ok (), { p with picked := 0 }, false, total)
      let isEnd := data.isEmpty
      let data := if binary then data.map fun b => if b = 0 then r.eol else b else data
      let (lines, rest) :=
        if isEnd then (if pending.isEmpty then [] else [pending], []) else Lines.split r.eol (pending ++ data)
      let writes := r.report = .lines || r.report = .parts
      let quiet : Request := { r with report := if writes then .nothing else r.report }
      let (p, out, more) := lines.foldl (fun (p, out, more) line =>
        if more then
          let (p, data, more) := (if binary then quiet else r).step name p line
          (p, data :: out, more)
        else (p, out, more)) (p, [], true)
      Act.put out.reverse.flatten
      if isEnd || !more then return (.ok (), p, binary, total)
      else r.pump source name fuel p rest binary total

/-- Write what is told of an input as a whole. -/
def Request.summary (r : Request) (name : Raw) (p : Progress) : Act Unit := do
  let nameLine := name ++ (if r.zeroNames then "\x00" else "\n")
  match r.report with
  | .count =>
    let label := if r.labels then (if r.zeroNames then name ++ "\x00" else name ++ ":") else ""
    Act.putText (label ++ toString p.picked ++ "\n")
  | .names => if 0 < p.picked then Act.putText nameLine
  | .otherNames => if p.picked = 0 then Act.putText nameLine
  | _ => return ()

/-- Search an open input. -/
def Request.searchIn (r : Request) (source : Source) (name : Raw) (isStdin : Bool) (t : Total) : Act Total := do
  let failed (e : Errno) : Act Total := do
    if !r.silent then Act.complain (name ++ ": " ++ e.text)
    return { t with failed := true }
  if r.most = some 0 then
    r.summary name {}
    return t
  let (result, p, binary, total) ← r.pump source name manyRounds { wrote := t.wrote } [] false 0
  match result with
  | .error e =>
    let t ← failed e
    r.summary name p
    return t
  | .ok () =>
    r.summary name p
    if binary && 0 < p.picked && (r.report = .lines || r.report = .parts) then
      Act.complain (name ++ ": binary file matches")
    let isFull := match r.most with
      | some most => decide (most ≤ p.picked)
      | none => false
    if isStdin && isFull then Act.giveBack source (total - p.used)
    return { t with picked := t.picked || 0 < p.picked, wrote := p.wrote || (binary && 0 < p.picked) }

/-- Search a file or directory. `fuel` bounds the depth of directories. -/
def Request.searchPath (r : Request) (isGiven : Bool) : Nat → Raw → Raw → Total → Act Total
  | 0, _, _, t => return t
  | fuel + 1, path, shown, t => do
    let failed (e : Errno) : Act Total := do
      if !r.silent then Act.complain (shown ++ ": " ++ e.text)
      return { t with failed := true }
    let isLink := match ← Act.info path false with
      | .ok info => info.kind = .link
      | .error _ => false
    if isLink && !isGiven && r.directories = .recurse then return t
    let isDir ← FileName.isDir path true
    if isDir && r.directories = .skip then return t
    else if isDir && r.directories = .recurse then
      match ← Act.call (.list (← read).directory (Raw.decode path)) with
      | .error e => failed e
      | .ok names =>
        names.foldlM (fun t name =>
          let name := Raw.encode name
          r.searchPath false fuel (FileName.inside path name)
            (if shown.isEmpty then name else FileName.inside shown name) t) t
    else
      match ← Act.openPath path with
      | .error e => failed e
      | .ok source =>
        let writes := (r.report = .lines || r.report = .parts || r.report = .count) && r.most ≠ some 0
        let same ← match ← Act.sourceInfo source, ← Act.sinkInfo (← read).stdout with
          | some a, some b =>
            match a.kind with
            | .file _ => pure (writes && r.report ≠ .count && a.node = b.node)
            | _ => pure false
          | _, _ => pure false
        if same then
          Act.complain (shown ++ ": input file is also the output")
          return { t with failed := true }
        else r.searchIn source shown false t

/-- How deep directories are searched. -/
def maxDepth : Nat := 4096

/-- Search the inputs one after the other. -/
def Request.searchAll (r : Request) : List Raw → Total → Act Total
  | [], t => return t
  | operand :: rest, t => do
    let t ← if operand = "-" then do r.searchIn (← read).stdin r.label true t
      else r.searchPath true maxDepth operand operand t
    if r.report = .nothing && t.picked then return t else r.searchAll rest t

/-! ## Options -/

/-- The options of the program. -/
def options : List OptionSpec :=
  [ ⟨"G", ["basic-regexp"], .flag⟩, ⟨"E", ["extended-regexp"], .flag⟩,
    ⟨"F", ["fixed-regexp", "fixed-strings"], .flag⟩, ⟨"P", ["perl-regexp"], .flag⟩,
    ⟨"A", ["after-context"], .value⟩, ⟨"B", ["before-context"], .value⟩, ⟨"C", ["context"], .value⟩,
    ⟨"binary-files", ["binary-files"], .value⟩, ⟨"line-buffered", ["line-buffered"], .flag⟩,
    ⟨"color", ["color", "colour"], .optional⟩, ⟨"c", ["count"], .flag⟩, ⟨"D", ["devices"], .value⟩,
    ⟨"d", ["directories"], .value⟩, ⟨"f", ["file"], .value⟩, ⟨"l", ["files-with-matches"], .flag⟩,
    ⟨"L", ["files-without-match"], .flag⟩, ⟨"i", ["ignore-case"], .flag⟩, ⟨"y", [], .flag⟩,
    ⟨"no-ignore-case", ["no-ignore-case"], .flag⟩, ⟨"T", ["initial-tab"], .flag⟩,
    ⟨"label", ["label"], .value⟩, ⟨"n", ["line-number"], .flag⟩, ⟨"x", ["line-regexp"], .flag⟩,
    ⟨"m", ["max-count"], .value⟩, ⟨"h", ["no-filename"], .flag⟩,
    ⟨"group-separator", ["group-separator"], .value⟩, ⟨"no-group-separator", ["no-group-separator"], .flag⟩,
    ⟨"s", ["no-messages"], .flag⟩, ⟨"Z", ["null"], .flag⟩, ⟨"z", ["null-data"], .flag⟩,
    ⟨"o", ["only-matching"], .flag⟩, ⟨"q", ["quiet", "silent"], .flag⟩, ⟨"r", ["recursive"], .flag⟩,
    ⟨"R", ["dereference-recursive"], .flag⟩, ⟨"e", ["regexp"], .value⟩, ⟨"v", ["invert-match"], .flag⟩,
    ⟨"a", ["text"], .flag⟩, ⟨"U", ["binary"], .flag⟩, ⟨"u", ["unix-byte-offsets"], .flag⟩,
    ⟨"H", ["with-filename"], .flag⟩, ⟨"w", ["word-regexp"], .flag⟩, ⟨"b", ["byte-offset"], .flag⟩,
    ⟨"I", [], .flag⟩, ⟨"V", [], .flag⟩ ] ++
    "0123456789".toList.map fun c => ⟨String.ofList [c], [], .flag⟩

/-- Tell how the program is used, and end. -/
def usage {α : Type} : Act α := do
  Act.putError "Usage: grep [OPTION]... PATTERNS [FILE]...\nTry 'grep --help' for more information.\n"
  Act.stop 2

/-- What the options ask for, as far as it is not part of the request. -/
structure Plan where
  request : Request := {}
  kind : PatternKind := .basic
  /-- The letter of the option that chose the kind. -/
  chosen : Option String := none
  fold : Bool := false
  /-- The texts of patterns, one on each line. -/
  texts : Option (List Raw) := none
  labels : Option Bool := none
  count : Bool := false
  list : Option Report := none
  quiet : Bool := false
  parts : Bool := false
  /-- The digits of a width given by itself. -/
  digits : Raw := ""
  context : Option Nat := none

/-- The lines of a text. -/
def textLines (text : Raw) : List Raw := text.splitOn "\n"

/-- A count of lines around picked ones. -/
def contextLength (text : Raw) : Act Nat := do
  match Number.parse "" Number.largest text with
  | .ok n => return n
  | .error .tooLarge => return Number.largest
  | .error .invalid => Act.fail (text ++ ": invalid context length argument") 2

/-- The word among some that a text means; a text that means none ends the program. -/
def choice {α : Type} (option : Raw) (words : List (String × α)) (text : Raw) : Act α := do
  match words.lookup text, words.filter fun (w, _) => w.startsWith text with
  | some a, _ => return a
  | none, [(_, a)] => return a
  | none, list =>
    Act.complain ((if list.isEmpty then "invalid" else "ambiguous") ++ " argument " ++ Quote.always text ++
      " for " ++ Quote.always option)
    Act.putError ("Valid arguments are:\n" ++ String.join (words.map fun (w, _) => "  - '" ++ w ++ "'\n"))
    usage

/-- Add patterns. -/
def Plan.addTexts (p : Plan) (texts : List Raw) : Plan :=
  { p with texts := some (p.texts.getD [] ++ texts) }

/-- The patterns in a file. -/
def patternFile (path : Raw) : Act (List Raw) := do
  match ← Act.readOperand path with
  | .error e => Act.fail (path ++ ": " ++ e.text) 2
  | .ok data =>
    let lines := textLines (Raw.ofBytes data)
    return if lines.getLast? = some "" then lines.dropLast else lines

/-- Take an option. -/
def Plan.take (p : Plan) (key : String) (value : Raw) : Act Plan := do
  let r := p.request
  let change (r : Request) : Act Plan := return { p with request := r }
  match key with
  | "G" | "E" | "P" | "F" =>
    if p.chosen.getD key ≠ key then Act.fail "conflicting matchers specified" 2
    return { p with
      chosen := some key
      kind := match key with
        | "G" => .basic
        | "F" => .fixed
        | _ => .extended }
  | "A" => change { r with after := some (← contextLength value) }
  | "B" => change { r with before := some (← contextLength value) }
  | "C" => return { p with context := some (← contextLength value) }
  | "binary-files" =>
    let use ← choice "--binary-files" [("binary", (false, false)), ("text", (true, false)), ("without-match", (false, true))] value
    change { r with isText := use.1, skipBinary := use.2 }
  | "a" => change { r with isText := true }
  | "I" => change { r with skipBinary := true }
  | "c" => return { p with count := true }
  | "d" =>
    let use ← choice "--directories" [("read", .read), ("recurse", .recurse), ("skip", .skip)] value
    change { r with directories := use }
  | "D" =>
    let _ ← choice "--devices" [("read", ()), ("skip", ())] value
    return p
  | "r" | "R" => change { r with directories := .recurse }
  | "e" => return p.addTexts (textLines value)
  | "f" => return p.addTexts (← patternFile value)
  | "l" => return { p with list := some .names }
  | "L" => return { p with list := some .otherNames }
  | "i" | "y" => return { p with fold := true }
  | "no-ignore-case" => return { p with fold := false }
  | "T" => change { r with tab := true }
  | "label" => change { r with label := value }
  | "n" => change { r with numbers := true }
  | "x" => change { r with extent := .line }
  | "w" => change { r with extent := if r.extent = .line then .line else .words }
  | "m" =>
    match Number.parse "" Number.largest value with
    | .ok n => change { r with most := some n }
    | .error .tooLarge => change { r with most := none }
    | .error .invalid =>
      let digits := (value.toList.drop 1)
      if value.startsWith "-" && !digits.isEmpty && digits.all Char.isDigit then change { r with most := none }
      else Act.fail "invalid max count" 2
  | "h" => return { p with labels := some false }
  | "H" => return { p with labels := some true }
  | "group-separator" => change { r with separator := some value }
  | "no-group-separator" => change { r with separator := none }
  | "s" => change { r with silent := true }
  | "Z" => change { r with zeroNames := true }
  | "z" => change { r with eol := 0 }
  | "o" => return { p with parts := true }
  | "q" => return { p with quiet := true }
  | "v" => change { r with invert := true }
  | "b" => change { r with offsets := true }
  | "V" => Act.stop 0
  | key =>
    match key.toList with
    | [c] => if c.isDigit then return { p with digits := p.digits ++ key } else return p
    | _ => return p

/-- Read a text as a pattern. -/
def Plan.pattern (p : Plan) (text : Raw) : Act Pattern := do
  match p.kind with
  | .fixed => return .literal p.fold (Raw.bytes text)
  | kind =>
    match Pattern.parse { extended := kind = .extended, fold := p.fold } text with
    | .ok pattern => return pattern
    | .error e => Act.fail e.message 2

/-- Tell of a repetition with nothing before it. -/
def Plan.warn (p : Plan) (text : Raw) : Act Unit := do
  if p.kind = .extended then
    let cs := text.toList
    let cs := match cs with
      | '^' :: rest => rest
      | _ => cs
    match cs with
    | '*' :: _ => Act.complain "warning: * at start of expression"
    | '+' :: _ => Act.complain "warning: + at start of expression"
    | '?' :: _ => Act.complain "warning: ? at start of expression"
    | '\x7b' :: _ => Act.complain "warning: \x7b...\x7d at start of expression"
    | _ => return ()

/-- Pick lines by patterns. -/
def grep : Act Nat := do
  let a ← Act.arguments options
  let p ← Act.withOptions { a with fault := none } ({} : Plan) 2 Plan.take
  if let some e := a.fault then
    Act.complain e.message
    usage
  let (texts, operands) ← match p.texts, a.operands with
    | some texts, operands => pure (texts, operands)
    | none, text :: operands => pure (textLines text, operands)
    | none, [] => usage
  let around ← if p.digits.isEmpty then pure p.context else some <$> contextLength p.digits
  let texts := texts.eraseDups
  let r := p.request
  let picksNothing := r.most = some 0 || (texts = [""] && r.invert && r.extent = .anywhere)
  if picksNothing && p.list ≠ some .otherNames then return 1
  let patterns ← texts.mapM p.pattern
  texts.forM p.warn
  let isTree := r.directories = .recurse
  let report := if p.quiet then .nothing
    else match p.list with
      | some report => report
      | none => if p.count then .count else if p.parts then .parts else .lines
  let labels := p.labels.getD (1 < operands.length || (isTree && operands.isEmpty))
  let isDirGiven ← match operands with
    | [one] => if isTree && p.labels.isNone then FileName.isDir one true else pure false
    | _ => pure false
  let request : Request :=
    { r with
      pattern := match patterns with
        | [] => .empty
        | first :: rest => rest.foldl .either first
      isEmpty := patterns.isEmpty
      report
      before := r.before.or around
      after := r.after.or around
      labels := labels || isDirGiven }
  let t ← if operands.isEmpty && isTree then request.searchPath true maxDepth "." "" {}
    else request.searchAll (if operands.isEmpty then ["-"] else operands) {}
  return if t.failed && !(p.quiet && t.picked) then 2 else if t.picked then 0 else 1

end Search

end Conch
