-- SUMMARY: The program env, which starts another program with other variables.
import Conch.Program.Arguments
import Conch.Program.Execution
import Conch.Program.Number

/-!
# Programs with other variables

`env` takes assignments and then the command to run with them. Without a command
it writes the variables. One argument can be split into several, with quotes,
escapes and variables in it.
-/

namespace Conch

namespace Env

/-- The code for trouble before the command is started. -/
def canceled : Nat := 125

/-! ## Splitting an argument -/

/-- Which quotes are open. -/
inductive Quotes where
  | none
  | single
  | double
  deriving DecidableEq, Repr

/-- The words so far, the latest first, and whether the next character begins a new one. -/
structure Split where
  words : List (List Char) := []
  atGap : Bool := true

namespace Split

/-- Begin a word if none is open. -/
def begin (s : Split) : Split :=
  if s.atGap then ⟨[] :: s.words, false⟩ else s

/-- Add characters, the latest of which is to stand last. -/
def add (s : Split) (cs : List Char) : Split :=
  let s := s.begin
  match s.words with
  | word :: rest => { s with words := (cs.reverse ++ word) :: rest }
  | [] => s

/-- The words in order. -/
def result (s : Split) : List Raw :=
  s.words.reverse.map fun word => String.ofList word.reverse

end Split

/-- What a letter after a backslash stands for. -/
def escape? : Char → Option Char
  | '"' => some '"'
  | '#' => some '#'
  | '$' => some '$'
  | '\'' => some '\''
  | '\\' => some '\\'
  | 'f' => some '\x0c'
  | 'n' => some '\n'
  | 'r' => some '\r'
  | 't' => some '\t'
  | 'v' => some '\x0b'
  | _ => none

/-- The name in braces after a dollar sign, and what follows it. -/
def bracedName? (cs : List Char) : Option (Raw × List Char) :=
  match cs with
  | '\x7b' :: c :: rest =>
    if c.isAlpha || c = '_' then
      let more := rest.takeWhile fun c => c.isAlphanum || c = '_'
      match rest.drop more.length with
      | '\x7d' :: after => some (String.ofList (c :: more), after)
      | _ => none
    else none
  | _ => none

/-- Split an argument into words, or tell why that is not possible. `fuel` bounds the characters
    read. -/
def splitUpTo (value? : Raw → Option Raw) : Nat → Quotes → Split → List Char → Except Raw (List Raw)
  | 0, _, s, _ => .ok s.result
  | fuel + 1, q, s, cs =>
    let go := splitUpTo value? fuel
    match cs with
    | [] => if q = .none then .ok s.result else .error "no terminating quote in -S string"
    | '\'' :: rest =>
      if q = .double then go q (s.add ['\'']) rest
      else go (if q = .single then .none else .single) s.begin rest
    | '"' :: rest =>
      if q = .single then go q (s.add ['"']) rest
      else go (if q = .double then .none else .double) s.begin rest
    | '#' :: rest => if s.atGap then .ok s.result else go q (s.add ['#']) rest
    | '\\' :: rest =>
      if q = .single && rest.head? ≠ some '\\' && rest.head? ≠ some '\'' then go q (s.add ['\\']) rest
      else
        match rest with
        | [] => .error "invalid backslash at end of string in -S"
        | '_' :: rest => if q = .double then go q (s.add [' ']) rest else go q { s with atGap := true } rest
        | 'c' :: _ =>
          if q = .double then .error "'\\c' must not appear in double-quoted -S string" else .ok s.result
        | c :: rest =>
          match escape? c with
          | some d => go q (s.add [d]) rest
          | none => .error ("invalid sequence '\\" ++ String.ofList [c] ++ "' in -S")
    | '$' :: rest =>
      if q = .single then go q (s.add ['$']) rest
      else
        match bracedName? rest with
        | none =>
          .error ("only $\x7bVARNAME\x7d expansion is supported, error at: " ++ String.ofList ('$' :: rest))
        | some (name, after) =>
          match value? name with
          | some value => go q (s.add value.toList) after
          | none => go q s after
    | c :: rest =>
      if Number.isBlank c && q = .none then go q { s with atGap := true } rest
      else go q (s.add [c]) rest

/-- Split an argument into words. -/
def split (value? : Raw → Option Raw) (text : Raw) : Except Raw (List Raw) :=
  splitUpTo value? (text.length + 1) .none {} text.toList

/-! ## The program -/

/-- What the options ask for. -/
structure Plan where
  empty : Bool := false
  unset : List Raw := []
  zero : Bool := false
  directory : Option Raw := none
  verbose : Bool := false

/-- The options of the program. -/
def options : List OptionSpec :=
  [ ⟨"i", ["ignore-environment"], .flag⟩, ⟨"u", ["unset"], .value⟩, ⟨"v", ["debug"], .flag⟩,
    ⟨"0", ["null"], .flag⟩, ⟨"C", ["chdir"], .value⟩, ⟨"S", ["split-string"], .value⟩ ] ++
    [" ", "\t", "\n", "\x0b", "\x0c", "\r"].map fun key => ⟨key, [], .flag⟩

/-- Take an option. -/
def Plan.take (p : Plan) (key : String) (value : Raw) : Act Plan := do
  match key with
  | "i" => return { p with empty := true }
  | "u" => return { p with unset := p.unset ++ [value] }
  | "v" => return { p with verbose := true }
  | "0" => return { p with zero := true }
  | "C" => return { p with directory := some value }
  | _ =>
    Act.complain ("invalid option -- '" ++ key ++ "'")
    Act.misused "use -[v]S to pass options in shebang lines" canceled

/-- Take options up to the first operand. Words that an option is split into come next. `fuel`
    bounds the words. -/
def takeOptions : Nat → Plan → List Raw → Act (Plan × List Raw)
  | 0, p, words => return (p, words)
  | _ + 1, p, [] => return (p, [])
  | fuel + 1, p, word :: rest => do
    if word = "--" then return (p, rest)
    else if !word.startsWith "-" || word = "-" then return (p, word :: rest)
    else
      let specs := options ++ Act.commonOptions
      let alone := Arguments.sort specs false [word]
      let needsValue := match alone.fault with
        | some (.noValue _) | some (.noWordValue _) => true
        | _ => false
      let (a, rest) := match rest with
        | value :: rest' => if needsValue then (Arguments.sort specs false [word, value], rest') else (alone, rest)
        | [] => (alone, rest)
      let plain := a.options.filter (·.1 ≠ "S")
      let p ← Act.withOptions { a with options := plain } p canceled fun p key value => p.take key value
      match a.value? "S" with
      | none => takeOptions fuel p rest
      | some text =>
        let environment := (← read).environment
        match split (fun name => environment.lookup name) text with
        | .ok words => takeOptions fuel p (words ++ rest)
        | .error e => Act.fail e canceled

/-- Split a word that is an assignment. -/
def assignment? (word : Raw) : Option (Raw × Raw) :=
  let cs := word.toList
  if cs.contains '=' then
    some (String.ofList (cs.takeWhile (· ≠ '=')), String.ofList ((cs.dropWhile (· ≠ '=')).drop 1))
  else none

/-- Set a variable, keeping its place if it is there. -/
def update (environment : List (Raw × Raw)) (v : Raw × Raw) : List (Raw × Raw) :=
  if (environment.lookup v.1).isSome then environment.map fun w => if w.1 = v.1 then v else w
  else environment ++ [v]

/-- Tell what is being done, if asked to. -/
def Plan.tell (p : Plan) (text : Raw) : Act Unit :=
  if p.verbose then Act.putError (text ++ "\n") else return ()

/-- The variables to start with. -/
def Plan.inherit (p : Plan) (given : List (Raw × Raw)) : Act (List (Raw × Raw)) := do
  if p.empty then
    p.tell "cleaning environ"
    return []
  for name in p.unset do
    p.tell ("unset:    " ++ name)
    if name.isEmpty || name.toList.contains '=' then
      Act.fail ("cannot unset " ++ Quote.plain name ++ ": " ++ Errno.invalid.text) canceled
  return given.filter fun v => !p.unset.contains v.1

/-- Become another program, or tell why that is not possible. -/
def become (programs : Programs) (call : Invocation) : Act Nat := do
  match ← liftM (Execution.start programs call) with
  | .ok job => throw (← liftM job)
  | .error e =>
    Act.complain (Quote.plain call.name ++ ": " ++ e.text)
    if e = .noEntry && call.name.toList.any Number.isBlank then
      Act.complain "use -[v]S to pass options in shebang lines"
    return if e = .noEntry then 127 else 126

/-- Start a program with other variables. -/
def env (programs : Programs) : Act Nat := do
  let i ← read
  let (p, words) ← takeOptions manyRounds {} i.args
  let (p, words) := match words with
    | "-" :: words => ({ p with empty := true }, words)
    | words => (p, words)
  let base ← p.inherit i.environment
  let given := words.takeWhile fun word => (assignment? word).isSome
  for word in given do p.tell ("setenv:   " ++ word)
  let environment := (given.filterMap assignment?).foldl update base
  match words.drop given.length with
  | [] =>
    if p.directory.isSome then Act.misused "must specify command with --chdir (-C)" canceled
    for (name, value) in environment do
      Act.putText (name ++ "=" ++ value ++ (if p.zero then "\x00" else "\n"))
    return 0
  | name :: args =>
    if p.zero then Act.misused "cannot specify --null (-0) with command" canceled
    let directory ← match p.directory with
      | none => pure i.directory
      | some path =>
        p.tell ("chdir:    " ++ Quote.always path)
        match ← Act.call (.enter i.directory (Raw.decode path)) with
        | .ok dir => pure dir
        | .error e =>
          Act.fail ("cannot change directory to " ++ Quote.always path ++ ": " ++ e.text) canceled
    p.tell ("executing: " ++ name)
    for (arg, k) in (name :: args).zipIdx do p.tell ("   arg[" ++ toString k ++ "]= " ++ Quote.plain arg)
    become programs { i with name, args, environment, directory }

end Env

end Conch
