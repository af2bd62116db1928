-- SUMMARY: The options of the command line, their spellings, and what is wrong with a command line.
import Conch.Text.Digit
import Conch.Text.Quoted

/-!
# Options

The command line has options only. A long option may be cut short as long as one
option alone begins that way, and takes its value after `=` or as the next word;
a short one also takes it glued on. Letters glued to a short option without a
value are more short options. A glued value that is just `--` is dropped, so the
option is there without a value. Words that are no option are refused at the end,
all together, so that a request for help before them is still heard.

A word that begins with a dash counts as a value if it is a lone dash, looks like
a negative number, or holds a space; words after `--` are never options.
-/

namespace Conch

/-- A single line that the command line gives. -/
inductive GivenLine where
  | text (line : String)
  /-- The option is there, and its value was dropped. -/
  | dropped
  deriving DecidableEq, Repr

/-- What the command line asks for. -/
structure Options where
  /-- A single line to run. -/
  command : Option GivenLine := none
  /-- The directory to start in. -/
  directory : Option String := none
  debug : Bool := false
  deriving DecidableEq, Repr

/-- What a command line comes to. -/
inductive CommandLine where
  | run (options : Options)
  | help
  | wrong (message : String)
  deriving DecidableEq, Repr

namespace Options

/-! ## Flags and words -/

/-- The options there are. -/
inductive Flag where
  | help
  | command
  | directory
  | debug
  deriving DecidableEq, Repr

/-- How options are spelled. -/
def spellings : List (String × Flag) :=
  [("-h", .help), ("--help", .help), ("-c", .command), ("--cwd", .directory), ("--debug", .debug)]

/-- The name of an option in messages. -/
def Flag.name : Flag → String
  | .help => "-h/--help"
  | .command => "-c"
  | .directory => "--cwd"
  | .debug => "--debug"

/-- Whether an option has a value. -/
def Flag.takesValue : Flag → Bool
  | .command | .directory => true
  | .help | .debug => false

/-- What a word on the command line is. -/
inductive Word where
  | plain
  | dashes
  | unknown
  /-- An option, and what is glued to it in the same word. -/
  | option (isLong : Bool) (flag : Flag) (glued : Option (List Char))
  deriving DecidableEq, Repr

/-- Whether a text is decimal digits, possibly none. -/
def allDigits (cs : List Char) : Bool :=
  cs.all fun c => (digitValue? c).isSome

/-- Whether a word looks like a negative number, whole or with a point. -/
def looksNegative (word : List Char) : Bool :=
  match word with
  | '-' :: rest =>
    let rest := if rest.getLast? = some '\n' then rest.dropLast else rest
    let whole := rest.takeWhile (· ≠ '.')
    match rest.drop whole.length with
    | [] => allDigits whole && !whole.isEmpty
    | _ :: fraction => allDigits whole && allDigits fraction && !fraction.isEmpty
  | _ => false

/-- The part of a word before its first equals sign, and the value after it. -/
def splitEquals (word : List Char) : List Char × Option (List Char) :=
  let before := word.takeWhile (· ≠ '=')
  match word.drop before.length with
  | [] => (before, none)
  | _ :: value => (before, some value)

/-- The options that a word may mean when it is not spelled in full. -/
def abbreviated (word : List Char) : List (String × Word) :=
  match word with
  | '-' :: '-' :: _ =>
    let (start, glued) := splitEquals word
    (spellings.filter fun s => start.isPrefixOf s.1.toList).map fun s =>
      (s.1, .option true s.2 glued)
  | _ =>
    (spellings.filter fun s => s.1.toList = word.take 2).map fun s =>
      (s.1, .option false s.2 (some (word.drop 2)))

/-- Whether a spelling is a long one. -/
def isLong (spelling : List Char) : Bool :=
  spelling.take 2 = ['-', '-']

/-- What a word is, or the message if it may mean several options. -/
def classify (text : String) : Except String Word :=
  let word := text.toList
  match word with
  | [] => .ok .plain
  | c :: rest =>
    if c ≠ '-' then .ok .plain
    else
      match spellings.lookup text with
      | some flag => .ok (.option (isLong word) flag none)
      | none =>
        if rest.isEmpty then .ok .plain
        else
          let (start, glued) := splitEquals word
          match glued, spellings.lookup (String.ofList start) with
          | some g, some flag => .ok (.option (isLong start) flag (some g))
          | _, _ =>
            match abbreviated word with
            | [(_, found)] => .ok found
            | [] =>
              if looksNegative word || word.contains ' ' then .ok .plain else .ok .unknown
            | several =>
              let names := ", ".intercalate (several.map (·.1))
              .error s!"ambiguous option: {text} could match {names}"

/-- What all words are. Nothing after two dashes is an option. -/
def classifyAll : List String → Except String (List (String × Word))
  | [] => .ok []
  | "--" :: rest => .ok (("--", .dashes) :: rest.map fun word => (word, .plain))
  | word :: rest => do
    let kind ← classify word
    let others ← classifyAll rest
    return (word, kind) :: others

/-! ## Reading -/

/-- What an option with its value does to what was read so far. -/
def take (o : Options) (flag : Flag) (value : String) : Options :=
  match flag with
  | .help => o
  | .command => { o with command := some (.text value) }
  | .directory => { o with directory := some value }
  | .debug => { o with debug := true }

/-- What an option does whose value was dropped. -/
def takeDropped (o : Options) (flag : Flag) : Options :=
  match flag with
  | .help => o
  | .command => { o with command := some .dropped }
  | .directory => { o with directory := none }
  | .debug => { o with debug := true }

/-- What an option with a glued value does. -/
def takeGlued (o : Options) (flag : Flag) (value : List Char) : Options :=
  if value = ['-', '-'] then o.takeDropped flag else o.take flag (String.ofList value)

/-- The message about one option. -/
def about (flag : Flag) (message : String) : String :=
  s!"argument {flag.name}: {message}"

/-- The message that a value is not wanted. -/
def unwanted (flag : Flag) (value : List Char) : String :=
  about flag ("ignored explicit argument " ++ quoted (String.ofList value))

/-- What is wrong with a short option and the characters glued to it, which are more short options
    up to one that takes the rest as its value. `valueFollows` tells whether the next word can be
    a value. -/
def clusterFault (valueFollows : Bool) (flag : Flag) : List Char → Option String
  | [] => if flag.takesValue && !valueFollows then some (about flag "expected one argument") else none
  | c :: rest =>
    if flag.takesValue then none
    else
      match spellings.lookup (String.ofList ['-', c]) with
      | none => some (unwanted flag (c :: rest))
      | some next => clusterFault valueFollows next rest

/-- Whether the next word can be a value. -/
def valueFollows : List (String × Word) → Bool
  | (_, .plain) :: _ => true
  | _ => false

/-- Read words one after the other. `extras` holds the words that are no option, the latest first. -/
def read (o : Options) (extras : List String) : List (String × Word) → CommandLine
  | [] =>
    if extras.isEmpty then .run o
    else .wrong ("unrecognized arguments: " ++ " ".intercalate extras.reverse)
  | (_, .option isLong flag glued) :: rest =>
    match glued with
    | some value =>
      if flag.takesValue then read (o.takeGlued flag value) extras rest
      else if isLong || value.isEmpty then .wrong (unwanted flag value)
      else
        match clusterFault (valueFollows rest) flag value with
        | some e => .wrong e
        | none => .help
    | none =>
      if flag.takesValue then
        match rest with
        | (value, .plain) :: rest => read (o.take flag value) extras rest
        | _ => .wrong (about flag "expected one argument")
      else if flag = .help then .help
      else read (o.take flag "") extras rest
  | (word, _) :: rest => read o (word :: extras) rest

/-- Read a command line. -/
def parse (words : List String) : CommandLine :=
  match classifyAll words with
  | .error e => .wrong e
  | .ok kinds => read {} [] kinds

/-! ## Texts -/

/-- How the interpreter is called, on one line. -/
def usage : String :=
  "usage: minishell [-h] [-c COMMAND] [--cwd CWD] [--debug]\n"

/-- The answer to a request for help, for lines of eighty columns. -/
def helpText : String :=
  usage ++ "\nMinimal interactive command interpreter.\n\noptions:\n" ++
  "  -h, --help  show this help message and exit\n" ++
  "  -c COMMAND  Run a single command line and exit with its status.\n" ++
  "  --cwd CWD   Starting working directory (defaults to the current directory).\n" ++
  "  --debug     Log engine activity and print the parsed command tree before\n" ++
  "              running it.\n"

/-- The answer to a command line that is wrong. -/
def wrongText (message : String) : String :=
  usage ++ s!"minishell: error: {message}\n"

end Options

end Conch
