-- SUMMARY: Patterns for names and texts, with stars, question marks and sets.
import Conch.Script.Shell

/-!
# Patterns

A pattern matches a whole text: `*` any part of it, `?` one character, and a set in
brackets one of its characters. Where a character was quoted it stands for itself,
so patterns are made of glyphs, which know that.
-/

namespace Conch

namespace Script

/-- A character in a word that is being put together, or a place where quotes were. -/
inductive Glyph where
  | char (c : Char) (isLiteral : Bool)
  | mark
  deriving DecidableEq, Repr

namespace Glyph

/-- The character of a glyph. -/
def char? : Glyph → Option Char
  | .char c _ => some c
  | .mark => none

end Glyph

/-- The text of glyphs. -/
def textOf (glyphs : List Glyph) : Raw := String.ofList (glyphs.filterMap Glyph.char?)

/-- The glyphs of a text. -/
def glyphsOf (isLiteral : Bool) (text : Raw) : List Glyph := text.toList.map (Glyph.char · isLiteral)

namespace Matching

/-- What a set of characters is made of. -/
inductive Member where
  | range (first last : Char)
  | kind (test : Char → Bool)

/-- A part of a pattern. -/
inductive Part where
  | star
  | one
  | char (c : Char)
  | set (isInverted : Bool) (members : List Member)

/-- The number of a byte when the eighth bit is a sign. -/
def signed (c : Char) : Int := if c.toNat < 128 then c.toNat else (c.toNat : Int) - 256

/-- Whether a character belongs to a member of a set. -/
def Member.holds (c : Char) : Member → Bool
  | .range first last => signed first ≤ signed c && signed c ≤ signed last
  | .kind test => test c

/-- Whether a character has a shape on paper. -/
def isGraph (c : Char) : Bool := '!' ≤ c && c ≤ '~'

/-- The classes of characters, by name. -/
def classes : List (Raw × (Char → Bool)) :=
  [ (":alnum:]", Char.isAlphanum), (":cntrl:]", fun c => c < ' ' || c = '\x7f'), (":lower:]", Char.isLower),
    (":space:]", Number.isBlank), (":alpha:]", Char.isAlpha), (":digit:]", Char.isDigit),
    (":print:]", fun c => ' ' ≤ c && c ≤ '~'), (":upper:]", Char.isUpper),
    (":blank:]", fun c => c = ' ' || c = '\t'), (":graph:]", isGraph),
    (":punct:]", fun c => isGraph c && !c.isAlphanum), (":xdigit:]", Number.isDigitIn 16) ]

/-- The pattern characters of glyphs. A backslash without quotes makes the next one literal. -/
def elements : List Glyph → List (Char × Bool)
  | [] => []
  | .mark :: rest => elements rest
  | .char c true :: rest => (c, true) :: elements rest
  | .char c false :: rest =>
    if c = '\\' then
      match escaped rest with
      | [] => [('\\', true)]
      | (d, _) :: rest => (d, true) :: rest
    else (c, false) :: elements rest
where
  /-- The pattern characters behind a backslash, of which the first is not looked at. -/
  escaped : List Glyph → List (Char × Bool)
    | [] => []
    | .mark :: rest => escaped rest
    | .char c _ :: rest => (c, true) :: elements rest

/-- The class at the start of a set's rest, and what follows it. -/
def class? (rest : List (Char × Bool)) : Option ((Char → Bool) × List (Char × Bool)) :=
  classes.findSome? fun (name, test) =>
    if (rest.take name.length).map (·.1) = name.toList && (rest.take name.length).all (!·.2) then
      some (test, rest.drop name.length)
    else none

/-- The members of a set, and what follows its bracket. `fuel` bounds the members. -/
def members? : Nat → Bool → List Member → List (Char × Bool) → Option (List Member × List (Char × Bool))
  | 0, _, _, _ | _, _, _, [] => none
  | fuel + 1, isFirst, found, (c, isLiteral) :: rest =>
    if c = ']' && !isLiteral && !isFirst then some (found.reverse, rest)
    else
      match if c = '[' && !isLiteral then class? rest else none with
      | some (test, rest) => members? fuel false (.kind test :: found) rest
      | none =>
        match rest with
        | ('-', false) :: (d, dLiteral) :: after =>
          if d = ']' && !dLiteral then members? fuel false (.range c c :: found) rest
          else members? fuel false (.range c d :: found) after
        | rest => members? fuel false (.range c c :: found) rest

/-- The parts of a pattern. `fuel` bounds them. -/
def parts : Nat → List (Char × Bool) → List Part
  | 0, _ | _, [] => []
  | fuel + 1, (c, isLiteral) :: rest =>
    if isLiteral then .char c :: parts fuel rest
    else if c = '*' then .star :: parts fuel rest
    else if c = '?' then .one :: parts fuel rest
    else if c = '[' then
      let (isInverted, inside) := match rest with
        | ('!', false) :: inside => (true, inside)
        | _ => (false, rest)
      match members? (rest.length + 1) true [] inside with
      | some (found, after) => .set isInverted found :: parts fuel after
      | none => .char '[' :: parts fuel rest
    else .char c :: parts fuel rest

/-- The parts of a pattern that glyphs make. -/
def ofGlyphs (glyphs : List Glyph) : List Part :=
  let found := elements glyphs
  parts (found.length + 1) found

/-- Whether a part that takes one character takes this one. -/
def Part.takes (c : Char) : Part → Bool
  | .star => false
  | .one => true
  | .char d => c = d
  | .set isInverted members => members.any (·.holds c) ≠ isInverted

/-- Whether a pattern matches a text. -/
def isMatch : List Part → List Char → Bool
  | [], text => text.isEmpty
  | .star :: rest, text => anyTail (isMatch rest) text
  | part :: rest, c :: text => part.takes c && isMatch rest text
  | _ :: _, [] => false
where
  /-- Whether a text or what is left of it after some characters passes a test. -/
  anyTail (test : List Char → Bool) : List Char → Bool
    | [] => test []
    | c :: text => test (c :: text) || anyTail test text

/-- Whether a pattern can match more than one text. -/
def isOpen (pattern : List Part) : Bool :=
  pattern.any fun
    | .char _ => false
    | _ => true

/-! ## Cutting texts -/

/-- Where a text is over for a pattern: parameters that follow each other are not seen together. -/
def firstParameter (text : List Char) : List Char := text.takeWhile (· ≠ '\x00')

/-- The length of the part at the start of a text that a pattern matches. -/
def startLength? (pattern : List Part) (longest : Bool) (text : List Char) : Option Nat :=
  let most := if longest then text.length else (firstParameter text).length
  let lengths := List.range (most + 1)
  (if longest then lengths.reverse else lengths).find? fun n => isMatch pattern (firstParameter (text.take n))

/-- The length of the part at the end of a text that a pattern matches. -/
def endLength? (pattern : List Part) (longest : Bool) (text : List Char) : Option Nat :=
  let most := if longest then (firstParameter text).length else text.length
  let starts := List.range (most + 1)
  let start := (if longest then starts else starts.reverse).find? fun n =>
    isMatch pattern (firstParameter (text.drop n))
  start.map (text.length - ·)

/-! ## Names of files -/

/-- Split pattern characters at their slashes. -/
def components (cs : List (Char × Bool)) : List (List (Char × Bool)) :=
  cs.foldr (fun e all =>
    match all with
    | [] => [[e]]
    | first :: rest => if e.1 = '/' then [] :: first :: rest else (e :: first) :: rest) [[]]

/-- The paths that match, each after the path so far. `asked` tells whether a pattern stood before, so
    that the path has to be looked up. -/
def paths (directory : Ino) (before : Raw) (asked : Bool) : List (List (Char × Bool)) → Job (List Raw)
  | [] => return []
  | component :: rest => do
    let pattern := parts (component.length + 1) component
    if isOpen pattern then
      let dir := if before.isEmpty then "." else before
      match ← Job.call (.list directory (Raw.decode dir)) with
      | .error _ => return []
      | .ok names =>
        let showsHidden := (component.head?.map (·.1)) = some '.'
        let names := ["." , ".."] ++ names.map Raw.encode
        let fits := names.filter fun name =>
          (showsHidden || name.toList.head? ≠ some '.') && isMatch pattern name.toList
        if rest.isEmpty then return fits.map (before ++ ·)
        else
          let found ← fits.mapM fun name => paths directory (before ++ name ++ "/") true rest
          return found.flatten
    else
      let name := before ++ String.ofList (component.map (·.1))
      if rest.isEmpty then
        if !asked then return []
        match ← Job.call (.stat directory (Raw.decode name) false) with
        | .ok _ => return [name]
        | .error _ => return []
      else paths directory (name ++ "/") asked rest

/-- The paths that a word matches as a pattern, in byte order. -/
def expand (directory : Ino) (glyphs : List Glyph) : Job (List Raw) := do
  let found ← paths directory "" false (components (elements glyphs))
  return found.mergeSort fun a b => before a b

end Matching

end Script

end Conch
