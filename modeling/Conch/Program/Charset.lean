-- SUMMARY: Sets of characters in order, and the program tr that maps, deletes and squeezes them.
import Conch.Program.Arguments
import Conch.Program.Filter
import Conch.Program.Number

/-!
# Sets of characters

A set is written as characters, ranges such as `a-z`, classes such as `[:upper:]`
and repetitions such as `[x*3]`, and stands for a sequence of bytes. Mapping takes
each byte of the first set to the byte at the same place in the second, whose last
byte stands for all further places. Letters change their case where a class of
letters stands at the same place in both sets.
-/

namespace Conch

namespace Charset

/-! ## Reading sets -/

/-- A byte of a set as it is written, and whether it was escaped. -/
abbrev Written := Char × Bool

/-- What a letter after a backslash stands for. -/
def letter? (c : Char) : Option Char :=
  match c with
  | 'a' => some '\x07'
  | 'b' => some '\x08'
  | 'f' => some '\x0c'
  | 'n' => some '\n'
  | 'r' => some '\r'
  | 't' => some '\t'
  | 'v' => some '\x0b'
  | _ => none

/-- The value of an octal digit. -/
def octal? (c : Char) : Option Nat :=
  if '0' ≤ c && c ≤ '7' then some (c.toNat - 48) else none

/-- What is told of a backslash with nothing after it. -/
def loneBackslash : Raw := "warning: an unescaped backslash at end of string is not portable"

/-- What is told of an octal number that gives no byte. -/
def ambiguousOctal (a b c : Char) : Raw :=
  let text := fun cs => String.ofList cs
  "warning: the ambiguous octal escape \\" ++ text [a, b, c] ++
    " is being\n\tinterpreted as the 2-byte sequence \\0" ++ text [a, b] ++ ", " ++ text [c]

/-- Read the escapes of a set, and give the warnings about them. -/
def unescape : List Char → List Written × List Raw
  | [] => ([], [])
  | ['\\'] => ([('\\', false)], [loneBackslash])
  | '\\' :: a :: rest =>
    match octal? a with
    | none =>
      let (set, warnings) := unescape rest
      (((letter? a).getD a, true) :: set, warnings)
    | some x =>
      match rest with
      | b :: c :: rest' =>
        match octal? b, octal? c with
        | some y, some z =>
          if x * 64 + y * 8 + z < 256 then
            let (set, warnings) := unescape rest'
            ((Char.ofNat (x * 64 + y * 8 + z), true) :: set, warnings)
          else
            let (set, warnings) := unescape (c :: rest')
            ((Char.ofNat (x * 8 + y), true) :: set, ambiguousOctal a b c :: warnings)
        | some y, none =>
          let (set, warnings) := unescape (c :: rest')
          ((Char.ofNat (x * 8 + y), true) :: set, warnings)
        | none, _ =>
          let (set, warnings) := unescape (b :: c :: rest')
          ((Char.ofNat x, true) :: set, warnings)
      | [b] =>
        match octal? b with
        | some y => ([(Char.ofNat (x * 8 + y), true)], [])
        | none =>
          let (set, warnings) := unescape [b]
          ((Char.ofNat x, true) :: set, warnings)
      | [] => ([(Char.ofNat x, true)], [])
  | c :: rest =>
    let (set, warnings) := unescape rest
    ((c, false) :: set, warnings)

/-- A piece of a set. -/
inductive Item where
  | char (c : Char)
  | range (first last : Char)
  | named (name : String)
  /-- All characters that count as this one. -/
  | like (c : Char)
  /-- A character so many times; as often as needed if the number is zero. -/
  | repeated (c : Char) (count : Nat)
  deriving DecidableEq, Repr

/-- Why a set makes no sense. -/
inductive Trouble where
  | noClass
  | noLike
  | unknownClass (name : Raw)
  | longLike (text : Raw)
  | badCount (text : Raw)
  | reversed (first last : Char)
  | endlessFirst
  | severalEndless
  | endlessUnmapped
  | likeInSecond
  | classInSecond
  | misaligned
  | emptySecond
  | classAtEnd
  | complementedClass
  deriving DecidableEq, Repr

/-- A character as it is shown. -/
def shown (c : Char) : Raw :=
  if c = '\\' then "\\\\"
  else if Quote.isShown c then String.ofList [c]
  else
    match Quote.controlLetter? c with
    | some letter => String.ofList ['\\', letter]
    | none => String.ofList ('\\' :: Quote.octal c.toNat)

/-- The end of a range as it is shown. -/
def shownEnd (c : Char) : Raw :=
  if Quote.isShown c then String.ofList [c] else String.ofList ('\\' :: Quote.octal c.toNat)

/-- The diagnostic for a set that makes no sense. -/
def Trouble.message : Trouble → Raw
  | .noClass => "missing character class name '[::]'"
  | .noLike => "missing equivalence class character '[==]'"
  | .unknownClass name => "invalid character class " ++ Quote.plain name
  | .longLike text => text ++ ": equivalence class operand must be a single character"
  | .badCount text => "invalid repeat count " ++ Quote.plain text ++ " in [c*n] construct"
  | .reversed first last =>
    "range-endpoints of '" ++ shownEnd first ++ "-" ++ shownEnd last ++
      "' are in reverse collating sequence order"
  | .endlessFirst => "the [c*] repeat construct may not appear in string1"
  | .severalEndless => "only one [c*] repeat construct may appear in string2"
  | .endlessUnmapped => "the [c*] construct may appear in string2 only when translating"
  | .likeInSecond => "[=c=] expressions may not appear in string2 when translating"
  | .classInSecond =>
    "when translating, the only character classes that may appear in\nstring2 are 'upper' and 'lower'"
  | .misaligned => "misaligned [:upper:] and/or [:lower:] construct"
  | .emptySecond => "when not truncating set1, string2 must be non-empty"
  | .classAtEnd =>
    "when translating with string1 longer than string2,\n" ++
      "the latter string must not end with a character class"
  | .complementedClass =>
    "when translating with complemented character classes,\n" ++
      "string2 must map all characters in the domain to one"

/-- All characters from one to another. -/
def span (first last : Char) : List Char :=
  (List.range (last.toNat + 1 - first.toNat)).map fun i => Char.ofNat (first.toNat + i)

/-- The characters of a class. -/
def class? (name : String) : Option (List Char) :=
  match name with
  | "alnum" => some (span '0' '9' ++ span 'A' 'Z' ++ span 'a' 'z')
  | "alpha" => some (span 'A' 'Z' ++ span 'a' 'z')
  | "blank" => some ['\t', ' ']
  | "cntrl" => some (span '\x00' '\x1f' ++ ['\x7f'])
  | "digit" => some (span '0' '9')
  | "graph" => some (span '!' '~')
  | "lower" => some (span 'a' 'z')
  | "print" => some (span ' ' '~')
  | "punct" => some (span '!' '/' ++ span ':' '@' ++ span '[' '\x60' ++ span '\x7b' '~')
  | "space" => some (span '\t' '\r' ++ [' '])
  | "upper" => some (span 'A' 'Z')
  | "xdigit" => some (span '0' '9' ++ span 'A' 'F' ++ span 'a' 'f')
  | _ => none

/-- The texts before and after a closing mark and bracket. -/
def closing? (mark : Char) : List Written → Option (List Written × List Written)
  | m :: b :: rest =>
    if m = (mark, false) && b = (']', false) then some ([], rest)
    else (closing? mark (b :: rest)).map fun (inside, after) => (m :: inside, after)
  | _ => none

/-- The text of what is written. -/
def textOf (set : List Written) : Raw := String.ofList (set.map (·.1))

/-- What is written, as it is shown. -/
def shownText (set : List Written) : Raw := String.join (set.map fun (c, _) => shown c)

/-- Whether digits and a bracket follow a star. -/
def isStarred (set : List Written) : Bool :=
  match set with
  | ('*', false) :: rest => (rest.dropWhile fun (c, _) => c.isDigit).head? = some (']', false)
  | _ => false

/-- The count of a repetition. -/
def count? (digits : List Char) : Option Nat :=
  let base := if digits.head? = some '0' then 8 else 10
  let value := digits.foldl (fun n c => n * base + (c.toNat - 48)) 0
  if digits.all (fun c => c.isDigit && c.toNat - 48 < base) && value ≤ Number.largest then some value
  else none

/-- The repetition that follows a bracket, and what follows it. -/
def repetition? (set : List Written) : Except Trouble (Option (Item × List Written)) :=
  match set with
  | (c, _) :: ('*', false) :: rest =>
    let digits := rest.takeWhile fun w => !w.2 && w.1 ≠ ']'
    match rest.drop digits.length with
    | (']', false) :: after =>
      match count? (digits.map (·.1)) with
      | some n => .ok (some (.repeated c n, after))
      | none => .error (.badCount (shownText digits))
    | _ => .ok none
  | _ => .ok none

/-- The construct that a bracket begins, and what follows it; `set` is what stands after the
    bracket. -/
def bracketed? (set : List Written) : Except Trouble (Option (Item × List Written)) :=
  match set with
  | (':', false) :: rest =>
    match closing? ':' rest with
    | none => repetition? set
    | some ([], _) => .error .noClass
    | some (name, after) =>
      if (class? (textOf name)).isSome then .ok (some (.named (textOf name), after))
      else if isStarred rest then repetition? set
      else .error (.unknownClass (shownText name))
  | ('=', false) :: rest =>
    match closing? '=' rest with
    | none => repetition? set
    | some ([], _) => .error .noLike
    | some ([(c, _)], after) => .ok (some (.like c, after))
    | some (text, _) => if isStarred rest then repetition? set else .error (.longLike (shownText text))
  | _ => repetition? set

/-- The pieces of a set. `fuel` bounds the characters read. -/
def items : Nat → List Written → Except Trouble (List Item)
  | fuel + 1, first :: second :: third :: rest => do
    let found ← if first = ('[', false) then bracketed? (second :: third :: rest) else .ok none
    match found with
    | some (item, after) => return item :: (← items fuel after)
    | none =>
      if second = ('-', false) then
        if third.1 < first.1 then .error (.reversed first.1 third.1)
        else return .range first.1 third.1 :: (← items fuel rest)
      else return .char first.1 :: (← items fuel (second :: third :: rest))
  | _, set => return set.map fun (c, _) => .char c

/-! ## What sets stand for -/

/-- A count of repetitions beyond which it makes no difference. -/
def enough : Nat := 65536

namespace Item

/-- The characters that an item stands for. -/
def chars : Item → List Char
  | .char c => [c]
  | .range first last => span first last
  | .named name => (class? name).getD []
  | .like c => [c]
  | .repeated c n => List.replicate (min n enough) c

/-- Whether an item is a class of letters of one case. -/
def isCase : Item → Bool
  | .named "lower" | .named "upper" => true
  | _ => false

/-- Whether an item is a class. -/
def isClass : Item → Bool
  | .named _ => true
  | _ => false

/-- Whether an item is repeated as often as needed. -/
def isEndless : Item → Bool
  | .repeated _ 0 => true
  | _ => false

end Item

/-- The characters of a set in order. -/
def sequence (set : List Item) : List Char := set.flatMap Item.chars

/-- The characters that are not in a list. -/
def complement (chars : List Char) : List Char :=
  (span '\x00' '\xff').filter (!chars.contains ·)

/-- A set being gone through: its items, each with the characters that are left of it. -/
abbrev Cursor := List (Item × List Char)

/-- The cursor at the start of a set. -/
def cursor (set : List Item) : Cursor :=
  (set.map fun item => (item, item.chars)).filter fun (_, chars) => !chars.isEmpty

/-- The next character of a cursor, its item, whether it is the first of it, and the cursor after
    it. -/
def next? : Cursor → Option (Char × Item × Bool × Cursor)
  | (item, c :: cs) :: rest =>
    some (c, item, item.chars.length = cs.length + 1, if cs.isEmpty then rest else (item, cs) :: rest)
  | _ => none

/-- Go on behind the item that a cursor is in. -/
def skip (c : Cursor) : Cursor := c.drop 1

/-- Check that classes of letters in the second set stand where such classes stand in the first,
    and count the lengths of both with such classes as one character each. -/
def alignment : Nat → Cursor → Cursor → Nat → Nat → Except Trouble (Nat × Nat)
  | 0, _, _, m, n => .ok (m, n)
  | fuel + 1, first, second, m, n =>
    match next? first, next? second with
    | some (_, i, isFirst, first'), some (_, j, jsFirst, second') =>
      if j.isCase then
        if jsFirst && !(isFirst && i.isCase) then .error .misaligned
        else alignment fuel (skip first') (skip second') (m + 1) (n + 1)
      else alignment fuel first' second' (m + 1) (n + 1)
    | none, some (_, j, jsFirst, _) =>
      if j.isCase && jsFirst then .error .misaligned
      else .ok (m, n + (second.map fun (_, chars) => chars.length).sum)
    | _, none => .ok (m + (first.map fun (_, chars) => chars.length).sum, n)

/-- The last character of a set, for all further places. -/
def last? (set : List Item) : Except Trouble (Option Char) :=
  match set.getLast? with
  | some (.named _) => .error .classAtEnd
  | some (.repeated c _) => .ok (some c)
  | some item => .ok item.chars.getLast?
  | none => .ok none

/-- The pairs of characters that are mapped. -/
def pairs : Nat → Cursor → Cursor → List (Char × Char)
  | 0, _, _ => []
  | fuel + 1, first, second =>
    match next? first, next? second with
    | some (c, i, _, first'), some (d, j, _, second') =>
      if j.isCase then
        let here := match i, j with
          | .named "lower", .named "upper" => (span 'a' 'z').zip (span 'A' 'Z')
          | .named "upper", .named "lower" => (span 'A' 'Z').zip (span 'a' 'z')
          | _, _ => [(c, d)]
        here ++ pairs fuel (skip first') (skip second')
      else (c, d) :: pairs fuel first' second'
    | _, _ => []

/-- How a set is used. -/
structure Use where
  complemented : Bool := false
  delete : Bool := false
  squeeze : Bool := false
  truncate : Bool := false

/-- What is done to bytes: deletion, mapping by table, and squeezing of repetitions. -/
structure Mapping where
  delete : List Char := []
  table : List (Char × Char) := []
  squeeze : List Char := []

/-- The second set, with its endless repetition as long as the first set needs. -/
def fillUp (length : Nat) (second : List Item) : List Item :=
  let given := (sequence second).length
  second.map fun item =>
    match item with
    | .repeated c 0 => .repeated c (length - given)
    | item => item

/-- The mapping from one set to another. -/
def mapping (use : Use) (first second : List Item) : Except Trouble Mapping := do
  let source := sequence first
  let length := if use.complemented then (complement source).length else source.length
  if first.any Item.isEndless then throw .endlessFirst
  let endless := (second.filter Item.isEndless).length
  if 1 < endless then throw .severalEndless
  let second := if endless = 1 then fillUp length second else second
  if second.any fun item => match item with | .like _ => true | _ => false then throw .likeInSecond
  if second.any fun item => item.isClass && !item.isCase then throw .classInSecond
  let rounds := source.length + (sequence second).length + 1
  let (m, n) ←
    if use.complemented || !second.any Item.isClass then pure (length, (sequence second).length)
    else alignment rounds (cursor first) (cursor second) 0 0
  let second ←
    if n < m && !use.truncate then
      if n = 0 then throw .emptySecond
      else
        match ← last? second with
        | some c => pure (second ++ [.repeated c (m - n)])
        | none => pure second
    else pure second
  let target := sequence second
  if use.complemented && first.any Item.isClass &&
      !(target.length = length && !target.isEmpty && target.all fun c => target.head? = some c) then
    throw .complementedClass
  let table :=
    if use.complemented then (complement source).zip target
    else pairs (rounds + m) (cursor first) (cursor second)
  return { table := table.reverse, squeeze := if use.squeeze then target else [] }

/-- Deletion or squeezing of a set, or of both sets. -/
def removal (use : Use) (first : List Item) (second : Option (List Item)) : Except Trouble Mapping := do
  if first.any Item.isEndless then throw .endlessFirst
  let set := if use.complemented then complement (sequence first) else sequence first
  match second with
  | none => return if use.delete then { delete := set } else { squeeze := set }
  | some second =>
    let endless := (second.filter Item.isEndless).length
    if 1 < endless then throw .severalEndless
    if endless = 1 then throw .endlessUnmapped
    return { delete := set, squeeze := sequence second }

/-! ## The program -/

/-- A table of all bytes. -/
def tableOf {α : Type} (f : Char → α) : Array α :=
  ((List.range 256).map fun n => f (Char.ofNat n)).toArray

/-- The filter that a mapping is. -/
def Mapping.filter (m : Mapping) : Filter :=
  let deleted := tableOf fun c => m.delete.contains c
  let squeezed := tableOf fun c => m.squeeze.contains c
  let target := tableOf fun c => ((m.table.lookup c).getD c).toNat.toUInt8
  { State := Option UInt8
    start := none
    feed := fun last data =>
      let (last, out) := data.foldl (fun (last, out) b =>
        if deleted.getD b.toNat false then (last, out)
        else
          let b := target.getD b.toNat b
          if last = some b && squeezed.getD b.toNat false then (last, out) else (some b, b :: out)) (last, [])
      (last, out.reverse, true)
    finish := fun _ => [] }

/-- Read a set, with warnings about it; one that makes no sense ends the program. -/
def read (text : Raw) : Act (List Item) := do
  let (written, warnings) := unescape text.toList
  for warning in warnings do Act.complain warning
  match items (written.length + 1) written with
  | .ok set => return set
  | .error e => Act.fail e.message 1

/-- The options of the program. -/
def options : List OptionSpec :=
  [ ⟨"c", ["complement"], .flag⟩, ⟨"C", [], .flag⟩, ⟨"d", ["delete"], .flag⟩,
    ⟨"s", ["squeeze-repeats"], .flag⟩, ⟨"t", ["truncate-set1"], .flag⟩, ⟨"A", [], .flag⟩ ]

/-- Check the number of operands. -/
def checkOperands (use : Use) (operands : List Raw) : Act Unit := do
  let usage : Act Unit := do
    Act.putError ("Try '" ++ (← MonadReader.read).name ++ " --help' for more information.\n")
    Act.stop 1
  let least := if use.delete = use.squeeze then 2 else 1
  let most := if use.delete && !use.squeeze then 1 else 2
  match operands with
  | [] => Act.misused "missing operand" 1
  | _ =>
    if operands.length < least then
      Act.complain ("missing operand after " ++ Quote.plain (operands.getLastD ""))
      Act.putError (if use.squeeze
        then "Two strings must be given when both deleting and squeezing repeats.\n"
        else "Two strings must be given when translating.\n")
      usage
    else if most < operands.length then
      Act.complain ("extra operand " ++ Quote.plain (operands.getD most ""))
      if operands.length = 2 then
        Act.putError "Only one string may be given when deleting without squeezing repeats.\n"
      usage
    else return ()

/-- Map, delete or squeeze characters. -/
def tr : Act Nat := do
  let a := Arguments.sort (options ++ Act.commonOptions) false (← MonadReader.read).args
  let use ← Act.withOptions a ({} : Use) 1 fun use key _ =>
    return match key with
      | "c" | "C" => { use with complemented := true }
      | "d" => { use with delete := true }
      | "s" => { use with squeeze := true }
      | "t" => { use with truncate := true }
      | _ => use
  checkOperands use a.operands
  let first ← read (a.operands.getD 0 "")
  let second ← (a.operands.drop 1).head?.mapM read
  let result := match second with
    | some second => if use.delete then removal use first (some second) else mapping use first second
    | none => removal use first none
  match result with
  | .error e => Act.fail e.message 1
  | .ok m =>
    match ← m.filter.runOn (← MonadReader.read).stdin with
    | .ok () => return 0
    | .error e => Act.fail ("read error: " ++ e.text) 1

end Charset

end Conch
