-- SUMMARY: The arguments of programs: options by letter or word, and operands.
import Conch.Program.Act

/-!
# Arguments of programs

An option is a letter after one dash or a word after two. Letters may share one
dash. An option that takes a value has it in the same word or in the next; a word
may be cut short as long as one option alone begins that way. Operands may stand
between options, and nothing after `--` is an option.

Options take effect in the order in which they stand, so what is wrong with the
arguments is known only after the options before it.
-/

namespace Conch

/-- Whether an option has a value. -/
inductive Arity where
  | flag
  | value
  /-- A value that has to stand in the same word. -/
  | optional
  deriving DecidableEq, Repr

/-- An option of a program. -/
structure OptionSpec where
  /-- The letter of the option, or a word if it has no letter. -/
  key : String
  words : List String := []
  arity : Arity := .flag

namespace OptionSpec

/-- The letter of an option. -/
def letter? (o : OptionSpec) : Option Char :=
  match o.key.toList with
  | [c] => some c
  | _ => none

end OptionSpec

/-- Why arguments make no sense. -/
inductive ArgumentError where
  | unknown (c : Char)
  | unknownWord (word : Raw)
  | ambiguous (word : Raw) (words : List String)
  | noValue (c : Char)
  | noWordValue (word : String)
  | unwantedValue (word : String)
  deriving DecidableEq, Repr

/-- The diagnostic for arguments that make no sense. -/
def ArgumentError.message : ArgumentError → Raw
  | .unknown c => "invalid option -- '" ++ String.ofList [c] ++ "'"
  | .unknownWord word => "unrecognized option '" ++ word ++ "'"
  | .ambiguous word words =>
    "option '" ++ word ++ "' is ambiguous; possibilities:" ++
      String.join (words.map fun w => " '--" ++ w ++ "'")
  | .noValue c => "option requires an argument -- '" ++ String.ofList [c] ++ "'"
  | .noWordValue word => "option '--" ++ word ++ "' requires an argument"
  | .unwantedValue word => "option '--" ++ word ++ "' doesn't allow an argument"

/-- Options, operands, and what is wrong after the options. -/
structure Arguments where
  options : List (String × Option Raw) := []
  operands : List Raw := []
  fault : Option ArgumentError := none

namespace Arguments

/-- The last value of an option. -/
def value? (a : Arguments) (key : String) : Option Raw :=
  (a.options.filter (·.1 = key)).getLast?.bind (·.2)

/-- Put options before the others. -/
def after (a : Arguments) (options : List (String × Option Raw)) : Arguments :=
  { a with options := options ++ a.options }

/-- Take apart the letters of one word of options. The last part tells which option still waits
    for its value, or what is wrong. -/
def letters (specs : List OptionSpec) :
    List Char → List (String × Option Raw) × Option (Except ArgumentError (String × Char))
  | [] => ([], none)
  | c :: cs =>
    match specs.find? fun o => o.letter? = some c with
    | none => ([], some (.error (.unknown c)))
    | some o =>
      match o.arity with
      | .flag =>
        let (options, rest) := letters specs cs
        ((o.key, none) :: options, rest)
      | .value => if cs.isEmpty then ([], some (.ok (o.key, c))) else ([(o.key, some (String.ofList cs))], none)
      | .optional => ([(o.key, if cs.isEmpty then none else some (String.ofList cs))], none)

/-- The option that a word means: one that is spelled that way, or the only one that begins so. -/
def findWord (specs : List OptionSpec) (whole : Raw) (name : String) :
    Except ArgumentError (OptionSpec × String) :=
  let all := specs.flatMap fun o => o.words.map fun w => (o, w)
  match all.find? fun (_, w) => w = name with
  | some found => .ok found
  | none =>
    match all.filter fun (_, w) => w.startsWith name with
    | [] => .error (.unknownWord whole)
    | (o, w) :: others =>
      if others.all fun (p, _) => p.key = o.key then .ok (o, w)
      else .error (.ambiguous whole (w :: others.map (·.2)))

/-- Sort words into options and operands. With `mixed`, options may follow operands. Words that
    `isOperand` accepts are operands whatever they begin with. -/
def sortWith (isOperand : Raw → Bool) (specs : List OptionSpec) (mixed : Bool) : List Raw → Arguments
  | [] => {}
  | word :: rest =>
    match if isOperand word then [] else word.toList with
    | ['-', '-'] => { operands := rest }
    | '-' :: '-' :: cs =>
      let name := cs.takeWhile (· ≠ '=')
      let value? := match cs.drop name.length with
        | [] => none
        | _ :: value => some (String.ofList value)
      match findWord specs word (String.ofList name), value? with
      | .error e, _ => { fault := some e }
      | .ok (o, w), some value =>
        if o.arity = .flag then { fault := some (.unwantedValue w) }
        else (sortWith isOperand specs mixed rest).after [(o.key, some value)]
      | .ok (o, w), none =>
        if o.arity = .value then
          match rest with
          | [] => { fault := some (.noWordValue w) }
          | value :: rest => (sortWith isOperand specs mixed rest).after [(o.key, some value)]
        else (sortWith isOperand specs mixed rest).after [(o.key, none)]
    | '-' :: c :: cs =>
      match letters specs (c :: cs) with
      | (options, none) => (sortWith isOperand specs mixed rest).after options
      | (options, some (.error e)) => { options, fault := some e }
      | (options, some (.ok (key, letter))) =>
        match rest with
        | [] => { options, fault := some (.noValue letter) }
        | value :: rest => (sortWith isOperand specs mixed rest).after (options ++ [(key, some value)])
    | _ =>
      if mixed then
        let a := sortWith isOperand specs mixed rest
        { a with operands := word :: a.operands }
      else { operands := word :: rest }

/-- Sort words into options and operands. With `mixed`, options may follow operands. -/
def sort (specs : List OptionSpec) (mixed : Bool) (words : List Raw) : Arguments :=
  sortWith (fun _ => false) specs mixed words

end Arguments

namespace Act

/-- The options that every program has. -/
def commonOptions : List OptionSpec := [⟨"help", ["help"], .flag⟩, ⟨"version", ["version"], .flag⟩]

/-- The program's arguments by options and operands. -/
def arguments (specs : List OptionSpec) : Act Arguments := do
  let i ← read
  let mixed := (i.environment.lookup "POSIXLY_CORRECT").isNone
  return Arguments.sort (specs ++ commonOptions) mixed i.args

/-- Go through the options one after the other, and end with a code if something is wrong. -/
def withOptions {σ : Type} (a : Arguments) (start : σ) (code : Nat)
    (each : σ → String → Raw → Act σ) : Act σ := do
  let s ← a.options.foldlM (fun s (key, value) =>
    if key = "help" || key = "version" then stop 0 else each s key (value.getD "")) start
  match a.fault with
  | some e => misused e.message code
  | none => return s

end Act

end Conch
