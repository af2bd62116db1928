-- SUMMARY: How patterns are written, in two notations, and what can be wrong with them.
import Conch.Pattern
import Conch.Raw

/-!
# The notation of patterns

Patterns are written in one of two notations. In the basic one, groups, bounds and
the signs for choice and repetition need a backslash; in the extended one they are
special without it. Sets of bytes stand in brackets and are the same in both.

A text is read token by token. What is wrong is told by the first token that does
not fit.
-/

namespace Conch

namespace Pattern

/-! ## Faults -/

/-- Why a text is no pattern. -/
inductive NotationError where
  | badPattern
  | badCollation
  | badClass
  | trailingBackslash
  | badReference
  | openBracket
  | openGroup
  | openBraces
  | badBraces
  | badRange
  | badRepetition
  | tooBig
  | closeGroup
  | confusingClass
  deriving DecidableEq, Repr

/-- The text for a pattern that makes no sense. -/
def NotationError.message : NotationError → Raw
  | badPattern => "Invalid regular expression"
  | badCollation => "Invalid collation character"
  | badClass => "Invalid character class name"
  | trailingBackslash => "Trailing backslash"
  | badReference => "Invalid back reference"
  | openBracket => "Unmatched [, [^, [:, [., or [="
  | openGroup => "Unmatched ( or \\("
  | openBraces => "Unmatched \\\x7b"
  | badBraces => "Invalid content of \\\x7b\\\x7d"
  | badRange => "Invalid range end"
  | badRepetition => "Invalid preceding regular expression"
  | tooBig => "Regular expression too big"
  | closeGroup => "Unmatched ) or \\)"
  | confusingClass => "character class syntax is [[:space:]], not [:space:]"

/-- Which notation is read. -/
structure Dialect where
  extended : Bool := false
  /-- Letters match in both cases. -/
  fold : Bool := false
  /-- A repetition needs something before it that is not repeated already. -/
  strict : Bool := false
  /-- Lines end within texts: no set but an explicit one holds the line feed. -/
  hasLines : Bool := false

/-! ## Brackets -/

/-- A token inside brackets. -/
inductive BracketToken where
  | char (c : Char)
  /-- The start of a named part: a class, or what counts as one character. -/
  | named (mark : Char)
  | hyphen
  | caret
  | close
  | finish
  deriving DecidableEq, Repr

/-- The character that a token stands for if it has no other meaning. -/
def BracketToken.plain : BracketToken → Char
  | .char c => c
  | .named mark => mark
  | .hyphen => '-'
  | .caret => '^'
  | .close => ']'
  | .finish => '\x00'

/-- The next token inside brackets, and what follows it. -/
def bracketToken (cs : List Char) : BracketToken × List Char :=
  match cs with
  | [] => (.finish, [])
  | '[' :: '.' :: rest => (.named '.', rest)
  | '[' :: '=' :: rest => (.named '=', rest)
  | '[' :: ':' :: rest => (.named ':', rest)
  | '-' :: '-' :: '-' :: rest => (.char '-', rest)
  | '-' :: rest => (.hyphen, rest)
  | '^' :: rest => (.caret, rest)
  | ']' :: rest => (.close, rest)
  | c :: rest => (.char c, rest)

/-- A part of a bracket expression. -/
inductive Element where
  | char (c : Char)
  | class (name : String)
  | like (name : List Char)
  | symbol (name : List Char)
  deriving DecidableEq, Repr

/-- How long the name of a part may be. -/
def nameLimit : Nat := 32

/-- The name up to a mark and a bracket, and what follows them. -/
def nameUpTo (mark : Char) : Nat → List Char → Option (List Char × List Char)
  | 0, _ => none
  | fuel + 1, cs =>
    match cs with
    | c :: d :: rest =>
      if c = mark && d = ']' then some ([], rest)
      else (nameUpTo mark fuel (d :: rest)).map fun (name, rest) => (c :: name, rest)
    | _ => none

/-- The part that a token begins, and what follows it. -/
def element (t : BracketToken) (rest : List Char) (acceptsHyphen : Bool) :
    Except NotationError (Element × List Char) :=
  match t with
  | .named mark =>
    match nameUpTo mark nameLimit rest with
    | none => .error .openBracket
    | some (name, rest) =>
      .ok (if mark = ':' then .class (String.ofList name) else if mark = '=' then .like name else .symbol name, rest)
  | .hyphen =>
    if !acceptsHyphen && (bracketToken rest).1 ≠ .close then .error .badRange else .ok (.char '-', rest)
  | t => .ok (.char t.plain, rest)

/-- The single character that a part stands for in a range. -/
def Element.end? : Element → Except NotationError Char
  | .char c => .ok c
  | .symbol [c] => .ok c
  | .symbol _ => .error .badCollation
  | _ => .error .badRange

/-- The test for a part. -/
def Element.test : Element → Except NotationError (Char → Bool)
  | .char c => .ok fun d => d = c
  | .like [c] => .ok fun d => d = c
  | .symbol [c] => .ok fun d => d = c
  | .like _ | .symbol _ => .error .badCollation
  | .class name =>
    match ByteSet.class? name with
    | some test => .ok fun d => test d.toNat.toUInt8
    | none => .error .badClass

/-- Read the parts of a bracket expression from a token on. `fuel` bounds their number. -/
def members : Nat → Bool → BracketToken → List Char → List (Char → Bool) →
    Except NotationError (List (Char → Bool) × List Char)
  | 0, _, _, _, _ => .error .openBracket
  | fuel + 1, isFirst, t, rest, found => do
    let (first, rest) ← element t rest isFirst
    let (next, after) := bracketToken rest
    let canRange := match first with
      | .class _ | .like _ => false
      | _ => true
    if canRange && next = .finish then throw .openBracket
    let range := if canRange && next = .hyphen then some (bracketToken after) else none
    match range with
    | some (.finish, _) => throw .openBracket
    | some (.close, rest) =>
      -- A hyphen before the closing bracket stands for itself.
      let test ← first.test
      return ((fun d => d = '-') :: test :: found, rest)
    | some (t, rest) =>
      let (last, rest) ← element t rest true
      let a ← first.end?
      let b ← last.end?
      if b < a then throw .badRange
      let (next, after) := bracketToken rest
      let found := (fun d => decide (a ≤ d) && decide (d ≤ b)) :: found
      match next with
      | .finish => throw .openBracket
      | .close => return (found, after)
      | next => members fuel false next after found
    | none =>
      let found := (← first.test) :: found
      match next with
      | .finish => throw .openBracket
      | .close => return (found, after)
      | next => members fuel false next after found

/-- Whether a bracket expression looks like a class without its outer brackets. -/
def isConfusing (inside : List Char) : Bool :=
  inside.head? = some ':' && inside.getLast? = some ':' && inside.any (· ≠ ':') && !inside.contains '['

/-- Read a bracket expression after its opening bracket. -/
def bracket (d : Dialect) (cs : List Char) : Except NotationError (ByteSet × List Char) := do
  let (t, rest) := bracketToken cs
  if t = .finish then throw .badPattern
  let negated := t = .caret
  let (t, rest) := if negated then bracketToken rest else (t, rest)
  if t = .finish then throw .badPattern
  let t := if t = .close then .char ']' else t
  let (tests, after) ← members (cs.length + 1) true t rest []
  if isConfusing (cs.take (cs.length - after.length - 1)) then throw .confusingClass
  let set := ByteSet.ofTest fun b => tests.any fun test => test (Char.ofNat b.toNat)
  let set := if d.fold then set.folded else set
  let set := if negated then
      let outside := set.complement
      if d.hasLines then .ofTest fun b => outside.has b && b ≠ 10 else outside
    else set
  return (set, after)

/-! ## Tokens -/

/-- A token of the notation. -/
inductive Token where
  | char (c : Char)
  | any
  | star
  | plus
  | optional
  | openBraces
  | closeBraces
  | openGroup
  | closeGroup
  | bar
  | openBracket
  | edge (e : Edge)
  | set (s : ByteSet)
  | again (i : Nat)
  | backslash
  | finish
  deriving DecidableEq, Repr

/-- The set of bytes that a test accepts, or its complement. -/
def classToken (test : UInt8 → Bool) (negated : Bool) : Token :=
  .set (.ofTest fun b => test b != negated)

/-- The token that a character after a backslash makes. -/
def escapedToken (d : Dialect) (c : Char) : Token :=
  let basic := fun (t : Token) => if d.extended then .char c else t
  let space := (ByteSet.class? "space").getD fun _ => false
  match c with
  | '|' => basic .bar
  | '<' => .edge .wordStart
  | '>' => .edge .wordEnd
  | 'b' => .edge .wordEdge
  | 'B' => .edge .notWordEdge
  | '\x60' => .edge .textStart
  | '\'' => .edge .textEnd
  | 'w' => classToken ByteSet.isWordByte false
  | 'W' => classToken ByteSet.isWordByte true
  | 's' => classToken space false
  | 'S' => classToken space true
  | '(' => basic .openGroup
  | ')' => basic .closeGroup
  | '+' => basic .plus
  | '?' => basic .optional
  | '\x7b' => basic .openBraces
  | '\x7d' => basic .closeBraces
  | c => if '1' ≤ c && c ≤ '9' then .again (c.toNat - 48) else .char c

/-- The next token and what follows it. `isAnchor` tells whether a caret here stands for the start of
    a line also in the basic notation. -/
def token (d : Dialect) (isAnchor : Bool) (cs : List Char) : Token × List Char :=
  let extended := fun (t : Token) (c : Char) => if d.extended then t else .char c
  match cs with
  | [] => (.finish, [])
  | ['\\'] => (.backslash, [])
  | '\\' :: c :: rest => (escapedToken d c, rest)
  | '*' :: rest => (.star, rest)
  | '[' :: rest => (.openBracket, rest)
  | '.' :: rest => (.any, rest)
  | '^' :: rest => (if d.extended || isAnchor then .edge .lineStart else .char '^', rest)
  | '$' :: rest =>
    let isEnd := d.extended ||
      (match rest with
        | [] => true
        | '\\' :: c :: _ => c = '|' || c = ')'
        | _ => false)
    (if isEnd then .edge .lineEnd else .char '$', rest)
  | c :: rest =>
    (match c with
      | '|' => extended .bar c
      | '+' => extended .plus c
      | '?' => extended .optional c
      | '\x7b' => extended .openBraces c
      | '\x7d' => extended .closeBraces c
      | '(' => extended .openGroup c
      | ')' => extended .closeGroup c
      | c => .char c, rest)

/-! ## Reading -/

/-- How far reading has come. -/
structure Reading where
  token : Token
  rest : List Char
  /-- How many groups were opened. -/
  groups : Nat := 0
  /-- The groups that can be referred back to. -/
  closed : List Nat := []

/-- A reader of a part of the notation. -/
abbrev Reader := StateT Reading (Except NotationError)

/-- Go on to the next token. -/
def fetch (d : Dialect) (isAnchor : Bool) : Reader Unit :=
  modify fun r =>
    let (token, rest) := Pattern.token d isAnchor r.rest
    { r with token, rest }

/-- One pattern after another. -/
def joined : Pattern → Pattern → Pattern
  | .empty, p => p
  | p, .empty => p
  | p, q => .append p q

/-- The most repetitions that can be asked for. -/
def mostRepeats : Nat := 32767

/-- The number of a bound, if it is one: nothing if there are no digits, an error if there is
    something else. Ends at a comma or the closing sign. `fuel` bounds the tokens. -/
def bound (d : Dialect) : Nat → Option Nat → Bool → Reader (Except Unit (Option Nat))
  | 0, _, _ => return .error ()
  | fuel + 1, n, good => do
    fetch d false
    match (← get).token with
    | .finish => return .error ()
    | .closeBraces => return if good then .ok n else .error ()
    | .char ',' => return if good then .ok n else .error ()
    | .char c =>
      if c.isDigit then
        bound d fuel (some (min (mostRepeats + 1) (n.getD 0 * 10 + (c.toNat - 48)))) good
      else bound d fuel n false
    | _ => bound d fuel n false

/-- The bounds of a repetition after the opening sign; nothing if the sign stands for itself. -/
def bounds (d : Dialect) : Reader (Option (Nat × Option Nat)) := do
  let before ← get
  let fuel := before.rest.length + 1
  let invalid : Reader (Option (Nat × Option Nat)) := do
    if d.extended && !d.strict then
      set { before with token := .char '\x7b' }
      return none
    else if (← get).token = .finish then throw .openBraces
    else throw .badBraces
  let first ← bound d fuel none true
  match first with
  | .error () => invalid
  | .ok start =>
    let comma := (← get).token = .char ','
    if start.isNone && !comma then throw .badBraces
    let second ← if comma then bound d fuel none true else pure (.ok start)
    match second with
    | .error () => invalid
    | .ok stop =>
      if (← get).token ≠ .closeBraces then throw .badBraces
      let least := start.getD 0
      match stop with
      | some most =>
        if most < least then throw .badBraces
        if mostRepeats < most then throw .tooBig
      | none => if mostRepeats < least then throw .tooBig
      fetch d false
      return some (least, stop)

/-- Repeat a part as the following tokens say. `fuel` bounds how often. -/
def repetitions (d : Dialect) : Nat → Pattern → Reader Pattern
  | 0, p => return p
  | fuel + 1, p => do
    let check (p : Pattern) : Reader Pattern := do
      let t := (← get).token
      if d.strict && !d.extended && (t = .star || t = .openBraces) then throw .badRepetition
      repetitions d fuel p
    match (← get).token with
    | .star =>
      fetch d false
      check (.times p 0 none)
    | .plus =>
      fetch d false
      check (.times p 1 none)
    | .optional =>
      fetch d false
      check (.times p 0 (some 1))
    | .openBraces =>
      match ← bounds d with
      | none => return p
      | some (least, most) => check (if most = some 0 then .empty else .times p least most)
    | _ => return p

/-- One byte that is a character. -/
def charPattern (d : Dialect) (c : Char) : Pattern :=
  let set := ByteSet.ofList [c.toNat.toUInt8]
  .one (if d.fold then set.folded else set)

/-- Any byte. -/
def anyPattern (d : Dialect) : Pattern :=
  .one (.ofTest fun b => !(d.hasLines && b = 10))

mutual

/-- Read choices. `nested` tells whether a group is open around them. -/
def readChoices (d : Dialect) (nested : Bool) : Nat → Reader Pattern
  | 0 => return .empty
  | fuel + 1 => do
    let closed := (← get).closed
    let first ← readBranch d nested fuel .empty true
    readMore d nested fuel closed first

/-- Read the choices after the first ones. -/
def readMore (d : Dialect) (nested : Bool) : Nat → List Nat → Pattern → Reader Pattern
  | 0, _, p => return p
  | fuel + 1, closed, p => do
    if (← get).token ≠ .bar then return p
    fetch d true
    let t := (← get).token
    if t = .bar || t = .finish || (nested && t = .closeGroup) then
      readMore d nested fuel closed (.either p .empty)
    else
      let all := (← get).closed
      modify fun r => { r with closed }
      let q ← readBranch d nested fuel .empty true
      modify fun r => { r with closed := r.closed ++ all }
      readMore d nested fuel closed (.either p q)

/-- Read parts one after the other. The first is read in any case. -/
def readBranch (d : Dialect) (nested : Bool) : Nat → Pattern → Bool → Reader Pattern
  | 0, p, _ => return p
  | fuel + 1, p, isFirst => do
    let t := (← get).token
    if !isFirst && (t = .bar || t = .finish || (nested && t = .closeGroup)) then return p
    let q ← readPart d nested fuel
    readBranch d nested fuel (joined p q) false

/-- Read one part with its repetitions. -/
def readPart (d : Dialect) (nested : Bool) : Nat → Reader Pattern
  | 0 => return .empty
  | fuel + 1 => do
    let plain (c : Char) : Reader Pattern := do
      fetch d false
      repetitions d fuel (charPattern d c)
    let misplaced (c : Char) : Reader Pattern := do
      if d.extended then
        if d.strict then throw .badRepetition
        fetch d false
        readPart d nested fuel
      else plain c
    match (← get).token with
    | .char c => plain c
    | .closeBraces => plain '\x7d'
    | .any =>
      fetch d false
      repetitions d fuel (anyPattern d)
    | .set s =>
      fetch d false
      repetitions d fuel (.one s)
    | .openBracket =>
      let (s, rest) ← liftM (bracket d (← get).rest)
      modify fun r => { r with rest }
      fetch d false
      repetitions d fuel (.one s)
    | .openGroup =>
      let n := (← get).groups + 1
      modify fun r => { r with groups := n }
      fetch d true
      let inside ← if (← get).token = .closeGroup then pure .empty
        else do
          let inside ← readChoices d true fuel
          if (← get).token ≠ .closeGroup then throw .openGroup
          pure inside
      modify fun r => { r with closed := n :: r.closed }
      fetch d false
      repetitions d fuel (.group n inside)
    | .again i =>
      if !(← get).closed.contains i then throw .badReference
      fetch d false
      repetitions d fuel (.again i d.fold)
    | .openBraces =>
      if d.strict && !d.extended then throw .badRepetition
      else if d.strict || !d.extended then misplaced '\x7b'
      else
        match ← bounds d with
        | none => plain '\x7b'
        | some _ => repetitions d fuel .empty
    | .star => misplaced '*'
    | .plus => misplaced '+'
    | .optional => misplaced '?'
    | .closeGroup => if d.extended && !d.strict then plain ')' else throw .closeGroup
    | .edge e =>
      fetch d false
      return .edge e
    | .bar | .finish => return .empty
    | .backslash => throw .trailingBackslash

end

/-- Read a pattern. -/
def parse (d : Dialect) (text : Raw) : Except NotationError Pattern := do
  let (token, rest) := Pattern.token d true text.toList
  let (p, _) ← (readChoices d false (4 * text.length + 8)).run { token, rest }
  return p

end Pattern

end Conch
