-- SUMMARY: The program uniq, which treats neighbouring equal lines as one.
import Conch.Program.Arguments
import Conch.Program.Filter
import Conch.Program.Number

/-!
# Neighbouring equal lines

`uniq` puts neighbouring equal lines together into groups and writes one line of
each, or only of those with or without repetitions, or all. What counts as equal
may leave out fields and bytes at the start of lines, and case.
-/

namespace Conch

namespace Unique

/-- Where empty lines stand between groups. -/
inductive Delimiter where
  | none
  | before
  | between
  | after
  | both
  deriving DecidableEq, Repr

/-- How lines are compared and which are written. -/
structure Style where
  counted : Bool := false
  /-- Whether lines that stand alone are written. -/
  single : Bool := true
  /-- Whether the first of several lines is written. -/
  first : Bool := true
  /-- Whether the others of several lines are written. -/
  others : Bool := false
  /-- Whether whole groups are written. -/
  grouped : Bool := false
  delimiter : Delimiter := .none
  ignoreCase : Bool := false
  skipFields : Nat := 0
  skipBytes : Nat := 0
  compared : Option Nat := none
  eol : UInt8 := Lines.feed

/-- A byte that parts fields. -/
def isGap (b : UInt8) : Bool := b = 32 || b = 9 || b = 10

/-- A line without so many fields at its start. -/
def dropFields : Nat → Bytes → Bytes
  | 0, line => line
  | n + 1, line =>
    if line.isEmpty then [] else dropFields n ((line.dropWhile isGap).dropWhile fun b => !isGap b)

/-- A small letter as a capital one. -/
def capital (b : UInt8) : UInt8 := if 97 ≤ b && b ≤ 122 then b - 32 else b

/-- What a line is compared by. -/
def Style.key (style : Style) (line : Bytes) : Bytes :=
  let rest := (dropFields style.skipFields line).drop style.skipBytes
  let rest := match style.compared with
    | some n => rest.take n
    | none => rest
  if style.ignoreCase then rest.map capital else rest

/-- Lines that are put together: the first, and the others with the latest first. -/
structure Group where
  key : Bytes
  first : Bytes
  others : List Bytes
  count : Nat

/-- What is written of a group. `isFirst` tells whether nothing was written before. -/
def Style.written (style : Style) (g : Group) (isFirst : Bool) : Bytes :=
  let ended := fun (line : Bytes) => line ++ [style.eol]
  let counted := fun (line : Bytes) =>
    if style.counted then
      let digits := toString g.count
      Raw.bytes (String.ofList (List.replicate (7 - digits.length) ' ') ++ digits ++ " ") ++ ended line
    else ended line
  let lines : List Bytes :=
    if style.grouped then (g.first :: g.others.reverse).map ended
    else if g.count = 1 then if style.single then [counted g.first] else []
    else
      (if style.first then [counted g.first] else []) ++
        if style.others then g.others.reverse.map ended else []
  let mark : Bytes := match style.delimiter with
    | .none => []
    | .before | .both => [style.eol]
    | .between | .after => if isFirst then [] else [style.eol]
  if lines.isEmpty then [] else mark ++ lines.flatten

/-- The state: the group under way, and whether something was written. -/
structure State where
  group : Option Group := none
  wrote : Bool := false

/-- The filter for a style. -/
def Style.filter (style : Style) : Filter :=
  let close := fun (s : State) =>
    match s.group with
    | none => (s, [])
    | some g =>
      let data := style.written g (!s.wrote)
      ({ s with wrote := s.wrote || !data.isEmpty }, data)
  Filter.ofLines style.eol ({} : State)
    (fun s line _ =>
      let key := style.key line
      match s.group with
      | some g =>
        if g.key = key then
          let others := if style.others || style.grouped then line :: g.others else []
          ({ s with group := some { g with others, count := g.count + 1 } }, [], true)
        else
          let (s, data) := close s
          ({ s with group := some ⟨key, line, [], 1⟩ }, data, true)
      | none => ({ s with group := some ⟨key, line, [], 1⟩ }, [], true))
    (fun s =>
      let (s, data) := close s
      let last := style.grouped && s.wrote && (style.delimiter = .after || style.delimiter = .both)
      data ++ if last then [style.eol] else [])

/-- The options of the program. -/
def options : List OptionSpec :=
  [ ⟨"c", ["count"], .flag⟩, ⟨"d", ["repeated"], .flag⟩, ⟨"D", [], .flag⟩,
    ⟨"all-repeated", ["all-repeated"], .optional⟩, ⟨"f", ["skip-fields"], .value⟩,
    ⟨"group", ["group"], .optional⟩, ⟨"i", ["ignore-case"], .flag⟩, ⟨"s", ["skip-chars"], .value⟩,
    ⟨"u", ["unique"], .flag⟩, ⟨"z", ["zero-terminated"], .flag⟩, ⟨"w", ["check-chars"], .value⟩ ] ++
  "0123456789".toList.map fun c => ⟨String.ofList [c], [], .flag⟩

/-- The number that an option gives. -/
def numberOf (text : Raw) (what : Raw) : Act Nat := do
  match Number.parse "" Number.largest text with
  | .ok n => return n
  | .error .tooLarge => return Number.largest
  | .error .invalid => Act.fail (text ++ ": invalid number of " ++ what) 1

/-- The place of empty lines that a word names. -/
def delimiterOf (option : String) (words : List (String × Delimiter)) (word : Raw) : Act Delimiter := do
  match words.find? fun (name, _) => name = word with
  | some (_, d) => return d
  | none =>
    match words.filter fun (name, _) => name.startsWith word with
    | [(_, d)] => return d
    | found =>
      Act.complain ((if found.isEmpty then "invalid" else "ambiguous") ++ " argument " ++ Quote.plain word ++
        " for '--" ++ option ++ "'")
      Act.putError ("Valid arguments are:\n" ++
        String.join (words.map fun (name, _) => "  - '" ++ name ++ "'\n"))
      Act.putError ("Try '" ++ (← read).name ++ " --help' for more information.\n")
      Act.stop 1

/-- Options read so far: the style, the digits of the old way to skip fields, and whether a choice
    of lines was made. -/
structure Read where
  style : Style := {}
  digits : List Char := []
  chosen : Bool := false

/-- Take one option. -/
def take (r : Read) (key : String) (value : Raw) : Act Read := do
  let style := r.style
  match key with
  | "c" => return { r with style := { style with counted := true }, chosen := true }
  | "d" => return { r with style := { style with single := false }, chosen := true }
  | "D" => return { r with style := { style with single := false, others := true }, chosen := true }
  | "all-repeated" =>
    let delimiter ← if value = "" then pure Delimiter.none
      else delimiterOf key [("none", .none), ("prepend", .before), ("separate", .between)] value
    return { r with style := { style with single := false, others := true, delimiter }, chosen := true }
  | "group" =>
    let delimiter ← if value = "" then pure Delimiter.between
      else delimiterOf key [("prepend", .before), ("append", .after), ("separate", .between), ("both", .both)] value
    return { r with style := { style with grouped := true, delimiter } }
  | "u" => return { r with style := { style with first := false }, chosen := true }
  | "i" => return { r with style := { style with ignoreCase := true } }
  | "z" => return { r with style := { style with eol := 0 } }
  | "f" => return { r with style := { style with skipFields := ← numberOf value "fields to skip" }, digits := [] }
  | "s" => return { r with style := { style with skipBytes := ← numberOf value "bytes to skip" } }
  | "w" => return { r with style := { style with compared := some (← numberOf value "bytes to compare") } }
  | key =>
    let digits := r.digits ++ key.toList
    return { r with style := { style with skipFields := Number.ofDigits digits }, digits }

/-- The number of bytes to skip that an operand gives in the old way, after a plus sign. -/
def oldSkip? (operand : Raw) : Option Nat :=
  match operand.toList with
  | '+' :: c :: cs =>
    if (c :: cs).all Char.isDigit then some (min Number.largest (Number.ofDigits (c :: cs))) else none
  | _ => none

/-- Put neighbouring equal lines together. -/
def uniq : Act Nat := do
  let a ← Act.arguments options
  let r ← Act.withOptions a ({} : Read) 1 take
  let style := match (a.operands.filterMap oldSkip?).getLast? with
    | some n => { r.style with skipBytes := n }
    | none => r.style
  let a := { a with operands := a.operands.filter fun operand => (oldSkip? operand).isNone }
  if let _ :: _ :: extra :: _ := a.operands then
    Act.misused ("extra operand " ++ Quote.plain extra) 1
  if style.grouped && r.chosen then Act.misused "--group is mutually exclusive with -c/-d/-D/-u" 1
  if style.counted && style.others then
    Act.misused "printing all duplicated lines and repeat counts is meaningless" 1
  let input := a.operands.head?.getD "-"
  match ← Act.openInput input with
  | .error e => Act.fail (plainFailure input e) 1
  | .ok source =>
    let stdout ← match a.operands with
      | [_, output] =>
        if output = "-" then pure (← read).stdout
        else
          match ← Act.openOutput output .truncate with
          | .ok sink => pure sink
          | .error e => Act.fail (plainFailure output e) 1
      | _ => pure (← read).stdout
    withReader (fun i => { i with stdout }) do
      let result ← style.filter.runOn source
      let written ← Act.flush
      match result, written with
      | .ok (), .ok () => return 0
      | .error e, _ => Act.fail ("error reading " ++ Quote.always input ++ ": " ++ e.text) 1
      | .ok (), .error e =>
        Act.drop
        Act.fail ("write error: " ++ e.text) 1

end Unique

end Conch
