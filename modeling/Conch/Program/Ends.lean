-- SUMMARY: The programs head and tail, which copy the beginning or the end of their inputs.
import Conch.Program.Arguments
import Conch.Program.Filter
import Conch.Program.Number

/-!
# Beginnings and ends

`head` copies the first lines or bytes of its inputs and `tail` the last ones; a
sign before the count means all but so many, or from so many on. With several
inputs each gets a heading.
-/

namespace Conch

namespace Ends

/-- When inputs get a heading. -/
inductive Headings where
  | whenSeveral
  | always
  | never
  deriving DecidableEq, Repr

/-- How much of an input is copied. -/
structure Portion where
  count : Nat := 10
  /-- Whether bytes are counted instead of lines. -/
  inBytes : Bool := false
  /-- Whether the count is of what is left out. -/
  inverse : Bool := false
  eol : UInt8 := Lines.feed
  headings : Headings := .whenSeveral

/-- Write to the output. What is refused ends the program at once. -/
def put (data : Bytes) : Act Unit := do
  match ← Act.tryPut data with
  | .ok () => return ()
  | .error e =>
    Act.drop
    Act.fail ("error writing 'standard output': " ++ e.text) 1

/-- An input's name in a heading. -/
def headingName (operand : Raw) : Raw :=
  if operand = "-" then "standard input" else operand

/-- Copy parts of what operands name. Gives whether all went well. With `strict`, a directory ends
    the program; with `needsInfo`, something has to be known about each input. -/
def copyAll (headings strict needsInfo : Bool) (copy : Source → Act (Except Errno Unit)) : List Raw → Bool → Act Bool
  | [], _ => return true
  | operand :: rest, isFirst => do
    let failed := fun (text : Raw) (isFirst : Bool) => do
      Act.complain text
      let _ ← copyAll headings strict needsInfo copy rest isFirst
      return false
    match ← Act.openInput operand with
    | .error e =>
      failed ("cannot open " ++ Quote.always (headingName operand) ++ " for reading: " ++ e.text) isFirst
    | .ok source =>
      if headings then
        Act.putText ((if isFirst then "" else "\n") ++ "==> " ++ headingName operand ++ " <==\n")
      if needsInfo && source = .closed then
        failed ("cannot fstat 'standard input': " ++ Errno.badDescriptor.text) false
      else match ← copy source with
      | .ok () => copyAll headings strict needsInfo copy rest false
      | .error e =>
        let text := "error reading " ++ Quote.always (headingName operand) ++ ": " ++ e.text
        if strict && e = .isDirectory then Act.fail text 1 else failed text false

/-- Copy what operands name with headings as asked for, and give the code. -/
def run (p : Portion) (strict needsInfo : Bool) (copy : Source → Act (Except Errno Unit)) (operands : List Raw) : Act Nat := do
  let operands := if operands.isEmpty then ["-"] else operands
  let headings := p.headings = .always || (p.headings = .whenSeveral && 1 < operands.length)
  let good ← copyAll headings strict needsInfo copy operands true
  if operands.contains "-" then Act.closeInput "-"
  return if good then 0 else 1

/-- The number that a count gives. -/
def countOf (inBytes : Bool) (text : Raw) : Act Nat :=
  Number.expect Number.countSuffixes Number.largest
    (if inBytes then "invalid number of bytes" else "invalid number of lines") text 1

/-! ## head -/

/-- Copy the first so many bytes. -/
def firstBytes (source : Source) : Nat → Nat → Act (Except Errno Unit)
  | 0, _ => return .ok ()
  | fuel + 1, count => do
    if count = 0 then return .ok ()
    match ← Act.call (.read source (min 8192 count)) with
    | .error e => return .error e
    | .ok [] => return .ok ()
    | .ok data =>
      put data
      firstBytes source fuel (count - data.length)

/-- Copy the first so many lines, and give back what was read behind them. -/
def firstLines (eol : UInt8) (source : Source) : Nat → Nat → Act (Except Errno Unit)
  | 0, _ => return .ok ()
  | fuel + 1, count => do
    if count = 0 then return .ok ()
    match ← Act.call (.read source 8192) with
    | .error e => return .error e
    | .ok [] => return .ok ()
    | .ok data =>
      let (taken, rest, left) := Lines.takeLines eol count data []
      put taken
      if left = 0 then
        Act.giveBack source rest.length
        return .ok ()
      else firstLines eol source fuel left

/-- Copy all but the last so many bytes or lines. -/
def allBut (p : Portion) (source : Source) : Act (Except Errno Unit) := do
  match ← Act.readAll source with
  | .error e => return .error e
  | .ok data =>
    if p.inBytes then put (data.take (data.length - p.count))
    else
      let lines := (Lines.all p.eol data).length
      put (Lines.takeLines p.eol (lines - p.count) data []).1
    return .ok ()

/-- Copy the beginning of a source. -/
def beginning (p : Portion) (source : Source) : Act (Except Errno Unit) :=
  if p.inverse then allBut p source
  else if p.inBytes then firstBytes source manyRounds p.count
  else firstLines p.eol source manyRounds p.count

/-- Read the old form of the options: a count with letters behind. -/
def oldHead (p : Portion) (word : List Char) : Act Portion := do
  let digits := word.takeWhile Char.isDigit
  let (p, multiplier) ← (word.drop digits.length).foldlM (fun ((p, multiplier) : Portion × List Char) c =>
    match c with
    | 'c' => return ({ p with inBytes := true }, [])
    | 'b' | 'k' | 'm' => return ({ p with inBytes := true }, [c])
    | 'l' => return ({ p with inBytes := false }, multiplier)
    | 'q' => return ({ p with headings := .never }, multiplier)
    | 'v' => return ({ p with headings := .always }, multiplier)
    | 'z' => return ({ p with eol := 0 }, multiplier)
    | c => Act.misused ("invalid trailing option -- " ++ String.ofList [c]) 1) (p, [])
  return { p with count := ← countOf p.inBytes (String.ofList (digits ++ multiplier)) }

/-- The options of `head`. -/
def headOptions : List OptionSpec :=
  [ ⟨"c", ["bytes"], .value⟩, ⟨"n", ["lines"], .value⟩, ⟨"q", ["quiet", "silent"], .flag⟩,
    ⟨"v", ["verbose"], .flag⟩, ⟨"z", ["zero-terminated"], .flag⟩ ] ++
  "0123456789".toList.map fun c => ⟨String.ofList [c], [], .flag⟩

/-- Copy the beginning of inputs. -/
def head : Act Nat := do
  let args := (← read).args
  let (p, args) ← match args with
    | word :: rest =>
      match word.toList with
      | '-' :: c :: cs => if c.isDigit then pure (← oldHead {} (c :: cs), rest) else pure ({}, args)
      | _ => pure ({}, args)
    | [] => pure ({}, args)
  withReader (fun i => { i with args }) do
    let a ← Act.arguments headOptions
    let p ← Act.withOptions a p 1 fun p key value => do
      match key with
      | "q" => return { p with headings := .never }
      | "v" => return { p with headings := .always }
      | "z" => return { p with eol := 0 }
      | "c" | "n" =>
        let inBytes := key = "c"
        let (inverse, text) := match value.toList with
          | '-' :: cs => (true, String.ofList cs)
          | _ => (false, value)
        return { p with count := ← countOf inBytes text, inBytes, inverse }
      | key => Act.misused ("invalid trailing option -- " ++ key) 1
    run p false p.inverse (beginning p) a.operands

/-! ## tail -/

/-- Copy what follows the first so many bytes or lines. -/
def skipThen (p : Portion) (source : Source) : Nat → Nat → Act (Except Errno Unit)
  | 0, _ => return .ok ()
  | fuel + 1, count => do
    match ← Act.call (.read source Act.readSize) with
    | .error e => return .error e
    | .ok [] => return .ok ()
    | .ok data =>
      let (rest, left) :=
        if p.inBytes then (data.drop count, count - data.length)
        else
          let (_, rest, left) := Lines.takeLines p.eol count data []
          (rest, left)
      put rest
      skipThen p source fuel left

/-- Copy the end of a source. -/
def ending (p : Portion) (source : Source) : Act (Except Errno Unit) := do
  if p.inverse then skipThen p source manyRounds (p.count - 1)
  else
    match ← Act.readAll source with
    | .error e => return .error e
    | .ok data =>
      if p.inBytes then put (data.drop (data.length - p.count))
      else
        let lines := (Lines.all p.eol data).length
        put (Lines.takeLines p.eol (lines - p.count) data []).2.1
      return .ok ()

/-- Read the old form of the options: one word with a count, before at most one operand. -/
def oldTail? (args : List Raw) : Option (Portion × List Raw) :=
  let isOption := fun (word : Raw) =>
    match word.toList with
    | '-' :: _ :: _ => true
    | _ => false
  let parsed? := fun (word : Raw) =>
    let count := fun (inverse : Bool) (cs : List Char) =>
      let digits := cs.takeWhile Char.isDigit
      let (p, rest) := match cs.drop digits.length with
        | 'b' :: rest => (({ inBytes := true, count := 5120, inverse } : Portion), rest)
        | 'c' :: rest => ({ inBytes := true, inverse }, rest)
        | 'l' :: rest => ({ inverse }, rest)
        | rest => ({ inverse }, rest)
      let scale := if p.count = 5120 then 512 else 1
      let p := if digits.isEmpty then p else { p with count := Number.ofDigits digits * scale }
      if rest = [] || rest = ['f'] then some p else none
    match word.toList with
    | '+' :: cs => count true cs
    | ['-'] | ['-', 'c'] => none
    | '-' :: cs => count false cs
    | _ => none
  match args with
  | [word] => (parsed? word).map fun p => (p, [])
  | [word, "--"] => (parsed? word).map fun p => (p, [])
  | [word, operand] => if isOption operand then none else (parsed? word).map fun p => (p, [operand])
  | [word, "--", operand] => (parsed? word).map fun p => (p, [operand])
  | _ => none

/-- The options of `tail`. -/
def tailOptions : List OptionSpec :=
  [ ⟨"c", ["bytes"], .value⟩, ⟨"n", ["lines"], .value⟩, ⟨"q", ["quiet", "silent"], .flag⟩,
    ⟨"v", ["verbose"], .flag⟩, ⟨"z", ["zero-terminated"], .flag⟩, ⟨"f", [], .flag⟩, ⟨"F", [], .flag⟩,
    ⟨"s", ["sleep-interval"], .value⟩, ⟨"follow", ["follow"], .optional⟩, ⟨"pid", ["pid"], .value⟩,
    ⟨"retry", ["retry"], .flag⟩, ⟨"max-unchanged-stats", ["max-unchanged-stats"], .value⟩ ] ++
  "0123456789".toList.map fun c => ⟨String.ofList [c], [], .flag⟩

/-- Copy the end of inputs. -/
def tail : Act Nat := do
  match oldTail? (← read).args with
  | some (p, operands) => run p p.inBytes true (ending p) operands
  | none =>
    let a ← Act.arguments tailOptions
    let p ← Act.withOptions a ({} : Portion) 1 fun p key value => do
      match key with
      | "q" => return { p with headings := .never }
      | "v" => return { p with headings := .always }
      | "z" => return { p with eol := 0 }
      | "c" | "n" =>
        let inBytes := key = "c"
        let (inverse, text) := match value.toList with
          | '-' :: cs => (false, String.ofList cs)
          | '+' :: _ => (true, value)
          | _ => (false, value)
        return { p with count := ← countOf inBytes text, inBytes, inverse }
      | key =>
        if (key.toList.head?.map Char.isDigit).getD false then
          Act.fail ("option used in invalid context -- " ++ key) 1
        else return p
    if p.count = 0 && !p.inverse then return 0
    run p p.inBytes true (ending p) a.operands

end Ends

end Conch
