-- SUMMARY: What the words of a script come to: values put in, fields split, and names of files found.
import Conch.Script.Arithmetic
import Conch.Script.Matching

/-!
# Expansion

A word is put together from its pieces, and may then be split into fields where
values without quotes have separators in them. Fields that are patterns give way to
the names of files they match.

What is put together is a list of stretches, each of which knows where it may be split.
-/

namespace Conch

namespace Script

/-! ## Splitting -/

/-- Where a stretch of text is split into fields. -/
inductive Splitting where
  | never
  /-- Between parameters only. -/
  | betweenParameters
  | atSeparators
  deriving DecidableEq, Repr

/-- A part of a word that was put together. -/
structure Stretch where
  glyphs : List Glyph
  splitting : Splitting := .never

/-- What stands between parameters that are put in one after the other. -/
def parameterEnd : Char := '\x00'

/-- The separators that leave no empty fields. -/
def blankSeparators : List Char := [' ', '\t', '\n']

/-- The separators of fields if no variable names others. -/
def defaultSeparators : Raw := " \t\n"

/-- How far splitting has come. -/
structure Breaking where
  /-- The fields so far, the latest first. -/
  fields : List (List Glyph) := []
  /-- The glyphs of the field at work, the latest first. -/
  current : List Glyph := []
  /-- A blank has just ended a field. -/
  afterBlank : Bool := false
  /-- How many fields may still come, if that is bounded. The last one takes all that is left. -/
  left : Option Nat := none
  /-- Where the last field is to be cut, if nothing but separators follow. -/
  cut : Option Nat := none

namespace Breaking

/-- Keep a glyph. -/
def keep (b : Breaking) (g : Glyph) : Breaking := { b with current := g :: b.current }

/-- Take a glyph of a stretch that is split. `follows` tells whether parameters were put in
    before. -/
def take (separators : List Char) (splitting : Splitting) (follows : Bool) (b : Breaking) (g : Glyph) :
    Breaking :=
  match g with
  | .mark => { b with afterBlank := false }.keep g
  | .char c _ =>
    let onlyEnds := splitting = .betweenParameters
    let isSeparator := c = parameterEnd || (!onlyEnds && separators.contains c)
    let isBlank := isSeparator && (c = parameterEnd || blankSeparators.contains c)
    if b.left = some 0 then
      if isBlank then { b with cut := some (b.cut.getD b.current.length) }.keep g
      else
        let cut := if isSeparator && b.afterBlank then b.cut else none
        { b with cut, afterBlank := false }.keep g
    else if b.afterBlank && isSeparator then { b with afterBlank := isBlank }
    else if isSeparator then
      let afterBlank := if follows || onlyEnds then b.afterBlank else isBlank
      if b.current.isEmpty && afterBlank then { b with afterBlank := false }
      else
        match b.left with
        | some (n + 1) =>
          if n = 0 then { b with left := some 0, afterBlank, cut := some b.current.length }.keep g
          else { b with left := some n, afterBlank, fields := b.current.reverse :: b.fields, current := [] }
        | _ => { b with afterBlank, fields := b.current.reverse :: b.fields, current := [] }
    else { b with afterBlank := false }.keep g

/-- Take all stretches. `last` tells how the stretch before was split. -/
def takeAll (separators : List Char) : Breaking → Splitting → List Stretch → Breaking × Splitting
  | b, last, [] => (b, last)
  | b, last, s :: rest =>
    if s.splitting = .never then takeAll separators { b with current := s.glyphs.reverse ++ b.current } last rest
    else
      let b := s.glyphs.foldl (take separators s.splitting (last = .betweenParameters)) { b with afterBlank := false }
      takeAll separators b s.splitting rest

end Breaking

/-- Split stretches into fields. A bound may be set on their number. -/
def breakUp (separators : Raw) (most : Option Nat) (stretches : List Stretch) : List (List Glyph) :=
  let (b, last) := Breaking.takeAll separators.toList { left := most } .never stretches
  let current := match b.cut with
    | some n => b.current.drop (b.current.length - n)
    | none => b.current
  (if current.isEmpty && last ≠ .betweenParameters then b.fields else current.reverse :: b.fields).reverse

/-! ## Values -/

/-- What a parameter stands for. -/
inductive Value where
  | one (text : Raw)
  | all (texts : List Raw)

/-- The names of options with the letters that turn them on. -/
def optionLetters : List (Raw × Option Char) :=
  [ ("errexit", some 'e'), ("noglob", some 'f'), ("ignoreeof", some 'I'), ("interactive", some 'i'),
    ("monitor", some 'm'), ("noexec", some 'n'), ("stdin", some 's'), ("xtrace", some 'x'),
    ("verbose", some 'v'), ("vi", some 'V'), ("emacs", some 'E'), ("noclobber", some 'C'),
    ("allexport", some 'a'), ("notify", some 'b'), ("nounset", some 'u'), ("privileged", some 'p'), ("nolog", none),
    ("debug", none) ]

/-- The value of a parameter, if it has one. -/
def Shell.parameter? (s : Shell) (name : Raw) : Option Value :=
  match name with
  | "@" | "*" => some (.all s.parameters)
  | "#" => some (.one (toString s.parameters.length))
  | "?" => some (.one (toString s.status))
  | "$" => some (.one (toString ownProcess))
  | "!" => s.lastBackground.map fun n => .one (toString n)
  | "-" =>
    some (.one (String.ofList (optionLetters.reverse.filterMap fun (option, letter) =>
      if s.isOn option then letter else none)))
  | _ =>
    match name.toList with
    | c :: _ =>
      if c.isDigit then
        match Number.ofDigits name.toList with
        | 0 => some (.one s.label)
        | n + 1 => (s.parameters[n]?).map .one
      else (s.value? name).map .one
    | [] => none

/-- The separators of fields. -/
def Shell.separators (s : Shell) : Raw := (s.value? "IFS").getD defaultSeparators

/-- How a word is expanded. -/
structure Setting where
  /-- It becomes fields. -/
  isFull : Bool := false
  inQuotes : Bool := false
  /-- It is the word of a parameter, and may be split as well. -/
  inParameter : Bool := false
  /-- A tilde may stand after a colon. -/
  afterColons : Bool := false

/-- What stands between all parameters when they are put in. -/
def Setting.between (g : Setting) (s : Shell) (name : Raw) : Option Char :=
  if g.isFull && g.inQuotes && name = "@" then some parameterEnd
  else
    match s.value? "IFS" with
    | none => some ' '
    | some ifs => if g.isFull && !g.inQuotes then some parameterEnd else ifs.toList.head?

/-- The text of a value. -/
def Setting.textOf (g : Setting) (s : Shell) (name : Raw) : Value → Raw
  | .one text => text
  | .all texts => (match g.between s name with
    | some c => String.ofList [c]
    | none => "").intercalate texts

/-- The stretch that a value makes. -/
def Setting.stretch (g : Setting) (s : Shell) (name : Raw) (glyphs : List Glyph) : Stretch :=
  { glyphs
    splitting := if !g.inQuotes then .atSeparators
      else if name = "@" && !s.parameters.isEmpty then .betweenParameters
      else .never }

/-! ## Tildes -/

/-- The directory that a tilde with a name stands for. -/
def Shell.homeOf? (s : Shell) (name : Raw) : Option Raw :=
  if name.isEmpty then s.value? "HOME" else if name = "root" then some "/root" else none

/-- Put in the directory for a tilde at the start of some text; more pieces may follow the text. -/
def Shell.tilde (s : Shell) (afterColons hasMore : Bool) (text : List Char) : Option (Raw × List Char) :=
  match text with
  | '~' :: rest =>
    let name := rest.takeWhile fun c => c ≠ '/' && !(afterColons && c = ':')
    let after := rest.drop name.length
    if after.isEmpty && hasMore then none
    else (s.homeOf? (String.ofList name)).map fun home => (home, after)
  | _ => none

/-- Replace the tildes in some text that begins where one may stand. `fuel` bounds the parts
    between colons. -/
def Shell.tildes (s : Shell) (afterColons hasMore : Bool) : Nat → Bool → List Char → List Piece
  | 0, _, text => [.bare (String.ofList text)]
  | fuel + 1, mayStand, text =>
    let (start, text) := match if mayStand then s.tilde afterColons hasMore text else none with
      | some (home, after) => ([Piece.literal home], after)
      | none => ([], text)
    if text.isEmpty then start
    else if !afterColons then start ++ [.bare (String.ofList text)]
    else
      let plain := text.takeWhile (· ≠ ':')
      match text.drop plain.length with
      | [] => start ++ [.bare (String.ofList plain)]
      | _ :: after =>
        start ++ .bare (String.ofList (plain ++ [':'])) :: Shell.tildes s afterColons hasMore fuel true after

/-- Replace the tildes in the text of a word. -/
def Shell.withTildes (s : Shell) (afterColons : Bool) : Bool → Word → Word
  | _, [] => []
  | mayStand, .bare text :: rest =>
    s.tildes afterColons (!rest.isEmpty) (text.length + 1) mayStand text.toList ++
      Shell.withTildes s afterColons false rest
  | _, piece :: rest => piece :: Shell.withTildes s afterColons false rest

/-! ## Pieces -/

/-- How the output of a command that stands in a word is found out. -/
abbrev Substitute := Option Tree → ShellM Raw

/-- The output of a command as it is put into a word: without the line ends at its end. -/
def trimmed (output : Raw) : Raw :=
  String.ofList ((output.toList.filter (· ≠ '\x00')).reverse.dropWhile (· = '\n')).reverse

/-- The text of some stretches. -/
def textOfAll (stretches : List Stretch) : Raw := textOf (stretches.flatMap (·.glyphs))

mutual

/-- What some pieces come to. `fuel` bounds how deep words stand in each other and how many pieces
    they have. -/
def expandPieces (run : Substitute) (g : Setting) : Nat → Word → ShellM (List Stretch)
  | 0, _ | _, [] => return []
  | fuel + 1, piece :: rest => do
    let first ← expandPiece run g fuel piece
    return first ++ (← expandPieces run g fuel rest)

/-- What a piece comes to. -/
def expandPiece (run : Substitute) (g : Setting) : Nat → Piece → ShellM (List Stretch)
  | 0, _ => return []
  | fuel + 1, piece => do
    match piece with
    | .bare text =>
      let splitting := if g.inParameter && !g.inQuotes then Splitting.atSeparators else .never
      return [⟨glyphsOf false text, splitting⟩]
    | .literal text => return [⟨glyphsOf true text, .never⟩]
    | .single text => return [⟨.mark :: glyphsOf true text ++ [.mark], .never⟩]
    | .double [.parameter "@" .plain false []] =>
      if g.inQuotes then expandQuoted run g fuel [.parameter "@" .plain false []]
      else expandPiece run { g with inQuotes := true } fuel (.parameter "@" .plain false [])
    | .double pieces => expandQuoted run g fuel pieces
    | .command body =>
      let text := trimmed (← run body)
      return [⟨glyphsOf g.inQuotes text, if g.inQuotes then .never else .atSeparators⟩]
    | .arithmetic expression =>
      let text := textOfAll (← expandPieces run {} fuel expression)
      let n ← Arithmetic.evaluate text
      return [⟨glyphsOf g.inQuotes (toString n), if g.inQuotes then .never else .atSeparators⟩]
    | .parameter name operation orEmpty word =>
      let s ← get
      let value := s.parameter? name
      let given := value.map fun v => g.textOf s name v
      let isSet := match given with
        | some text => !(orEmpty && text.isEmpty)
        | none => false
      let put := fun (text : Raw) => do
        return [g.stretch (← get) name (glyphsOf g.inQuotes text)]
      let demanded : ShellM Raw := do
        match given with
        | some text => return text
        | none =>
          if s.isOn "nounset" then trouble (name ++ ": parameter not set")
          return ""
      let inner := fun (g : Setting) => do
        expandPieces run g fuel ((← get).withTildes g.afterColons true word)
      let plainWord : ShellM Raw := do return textOfAll (← inner {})
      match operation with
      | .senseless => trouble "Bad substitution"
      | .plain =>
        let text ← demanded
        if given.isSome then put text else return []
      | .length =>
        let text ← demanded
        let n := text.length
        return [g.stretch s name (glyphsOf g.inQuotes (toString n))]
      | .default => if isSet then put (given.getD "") else inner { g with inParameter := true }
      | .alternative => if isSet then inner { g with inParameter := true } else return []
      | .assign =>
        if isSet then put (given.getD "")
        else
          let text ← plainWord
          assign name text
          put text
      | .demand =>
        if isSet then put (given.getD "")
        else
          let text ← plainWord
          if word.isEmpty then
            trouble (name ++ ": parameter not set" ++ (if orEmpty then " or null" else ""))
          else trouble (name ++ ": " ++ text)
      | .dropStart longest =>
        let text ← demanded
        if given.isNone then return []
        let pattern := Matching.ofGlyphs ((← inner {}).flatMap (·.glyphs))
        let n := (Matching.startLength? pattern longest text.toList).getD 0
        put (String.ofList (text.toList.drop n))
      | .dropEnd longest =>
        let text ← demanded
        if given.isNone then return []
        let pattern := Matching.ofGlyphs ((← inner {}).flatMap (·.glyphs))
        let n := (Matching.endLength? pattern longest text.toList).getD 0
        put (String.ofList (text.toList.take (text.length - n)))

/-- What pieces in double quotes come to. -/
def expandQuoted (run : Substitute) (g : Setting) : Nat → Word → ShellM (List Stretch)
  | 0, _ => return []
  | fuel + 1, pieces => do
    let inside ← expandPieces run { g with inQuotes := true } fuel pieces
    return ⟨[.mark], .never⟩ :: inside ++ [⟨[.mark], .never⟩]

end

/-! ## Words -/

/-- What a word comes to, with tildes replaced. -/
def expandWord (run : Substitute) (g : Setting) (w : Word) : ShellM (List Stretch) := do
  expandPieces run g manyRounds ((← get).withTildes g.afterColons true w)

/-- A word as one text. -/
def expandText (run : Substitute) (w : Word) : ShellM Raw := do
  return textOfAll (← expandWord run {} w)

/-- The value of an assignment. -/
def expandValue (run : Substitute) (w : Word) : ShellM Raw := do
  return textOfAll (← expandWord run { afterColons := true } w)

/-- A word as a pattern. -/
def expandPattern (run : Substitute) (w : Word) : ShellM (List Matching.Part) := do
  return Matching.ofGlyphs ((← expandWord run {} w).flatMap (·.glyphs))

/-- The text of a document. -/
def expandDocument (run : Substitute) (w : Word) : ShellM Raw := do
  return textOfAll (← expandPieces run { inQuotes := true } manyRounds w)

/-- The names of files that a field matches, or its text. -/
def expandField (glyphs : List Glyph) : ShellM (List Raw) := do
  let s ← get
  let mayMatch := !s.isOn "noglob" && glyphs.any fun
    | .char c false => c = '*' || c = '?' || c = '['
    | _ => false
  let found ← if mayMatch then liftM (Matching.expand s.directory glyphs) else pure []
  return if found.isEmpty then [textOf glyphs] else found

/-- The fields of a word. -/
def expandFields (run : Substitute) (w : Word) : ShellM (List Raw) := do
  let stretches ← expandWord run { isFull := true } w
  let fields := breakUp (← get).separators none stretches
  return (← fields.mapM expandField).flatten

/-- The fields of several words. -/
def expandAll (run : Substitute) (words : List Word) : ShellM (List Raw) := do
  return (← words.mapM (expandFields run)).flatten

end Script

end Conch
