-- SUMMARY: Options of the built-in commands of scripts, and the options of the shell.
import Conch.Script.Expansion

/-!
# Options

Built-in commands take letters after a dash, some with a value. The shell has options of
its own, which are turned on and off by letter or by name.
-/

namespace Conch

namespace Script

/-- Whether a letter is an option, and whether it takes a value. -/
def optionKind? (spec : List Char) (letter : Char) : Option Bool :=
  match spec with
  | [] => none
  | c :: rest =>
    let takes := rest.head? = some ':'
    if c = letter && c ≠ ':' then some takes else optionKind? rest letter

/-- Take the letters of one word. Gives the options, the latest first, and the words that are left. -/
def takeLetters (spec : List Char) : List Char → List Raw → List (Char × Raw) →
    ShellM (List (Char × Raw) × List Raw)
  | [], rest, taken => return (taken, rest)
  | c :: cs, rest, taken => do
    match optionKind? spec c with
    | none => trouble ("Illegal option -" ++ String.ofList [c])
    | some false => takeLetters spec cs rest ((c, "") :: taken)
    | some true =>
      if !cs.isEmpty then return ((c, String.ofList cs) :: taken, rest)
      match rest with
      | value :: rest => return ((c, value) :: taken, rest)
      | [] => trouble ("No arg for -" ++ String.ofList [c] ++ " option")

/-- Take the options before the operands. `fuel` bounds the words. -/
def takeWords (spec : List Char) : Nat → List Raw → List (Char × Raw) → ShellM (List (Char × Raw) × List Raw)
  | 0, words, taken => return (taken.reverse, words)
  | fuel + 1, words, taken => do
    match words with
    | word :: rest =>
      match word.toList with
      | ['-', '-'] => return (taken.reverse, rest)
      | '-' :: c :: cs =>
        let (taken, rest) ← takeLetters spec (c :: cs) rest taken
        takeWords spec fuel rest taken
      | _ => return (taken.reverse, words)
    | [] => return (taken.reverse, [])

/-- Take the options of a built-in command; a colon follows the letters that have values. -/
def takeOptions (spec : String) (args : List Raw) : ShellM (List (Char × Raw) × List Raw) :=
  takeWords spec.toList (args.length + 1) args []

/-! ## Options of the shell -/

/-- Turn an option on or off. -/
def Shell.turn (s : Shell) (option : Raw) (isOn : Bool) : Shell :=
  let others := s.options.filter (· ≠ option)
  { s with options := if isOn then option :: others else others }

/-- Turn an option on or off by its letter. -/
def turnLetter (letter : Char) (isOn : Bool) : ShellM Unit :=
  match optionLetters.find? (·.2 = some letter) with
  | some (option, _) => modify fun s => s.turn option isOn
  | none => trouble ("Illegal option -" ++ String.ofList [letter])

/-- Turn an option on or off by its name, or show all. At the start of the shell all count as on. -/
def turnName (atStart : Bool) (name : Option Raw) (isOn : Bool) : ShellM Unit := do
  match name with
  | some name =>
    if optionLetters.any (·.1 = name) then modify fun s => s.turn name isOn
    else trouble ("Illegal option -o " ++ name)
  | none =>
    let s ← get
    if isOn then
      put "Current option settings\n"
      optionLetters.forM fun (option, _) =>
        put (option ++ String.ofList (List.replicate (16 - option.length) ' ') ++
          (if atStart || s.isOn option then "on" else "off") ++ "\n")
    else
      optionLetters.forM fun (option, _) =>
        put ("set " ++ (if atStart || s.isOn option then "-o " else "+o ") ++ option ++ "\n")

/-- What the letters of the shell's arguments ask for besides its options. -/
structure Request where
  /-- The script is the first operand. -/
  isText : Bool := false

/-- Take letters that turn options on or off. At the start of the shell there are some more. Gives
    the words that are left. -/
def turnLetters (atStart isOn : Bool) : List Char → List Raw → Request → ShellM (List Raw × Request)
  | [], words, r => return (words, r)
  | c :: cs, words, r => do
    if c = 'c' && atStart then turnLetters atStart isOn cs words { r with isText := true }
    else if c = 'l' && atStart then turnLetters atStart isOn cs words r
    else if c = 'o' then
      turnName atStart words.head? isOn
      turnLetters atStart isOn cs (words.drop 1) r
    else
      turnLetter c isOn
      turnLetters atStart isOn cs words r

/-- Take the words that turn options on or off. Gives the words that are left, if they are to be
    the parameters. `fuel` bounds the words. -/
def turnAll (atStart : Bool) : Nat → List Raw → Request → ShellM (List Raw × Bool × Request)
  | 0, words, r => return (words, true, r)
  | fuel + 1, words, r => do
    match words with
    | [] => return ([], false, r)
    | word :: rest =>
      match word.toList with
      | ['-'] =>
        if !atStart then modify fun s => (s.turn "xtrace" false).turn "verbose" false
        return (rest, !rest.isEmpty, r)
      | ['-', '-'] => return (rest, true, r)
      | '-' :: cs =>
        let (rest, r) ← turnLetters atStart true cs rest r
        turnAll atStart fuel rest r
      | '+' :: cs =>
        let (rest, r) ← turnLetters atStart false cs rest r
        turnAll atStart fuel rest r
      | _ => return (words, true, r)

/-- Set options and parameters, or show the variables. -/
def setShell (args : List Raw) : ShellM Nat := do
  match args with
  | [] => showVariables "" fun v => v.value.isSome
  | args =>
    let (words, areParameters, _) ← turnAll false (args.length + 1) args {}
    if areParameters then modify fun s => { s with parameters := words, optionIndex := 1, optionOffset := none }
  return 0

end Script

end Conch
