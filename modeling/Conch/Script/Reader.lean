-- SUMMARY: Reading scripts: tokens, words and commands.
import Conch.Program.Act
import Conch.Script.Tree

/-!
# Reading scripts

A script is read line by line, and each line is run before the next one is read.
What is wrong with a script is therefore found only when it is reached.

Words and commands are read together, since commands may stand in words. How a
character is taken depends on what is around it, which is the `Mode`.
-/

namespace Conch

namespace Script

/-- Why a script makes no sense, and in which line that was found. -/
structure SyntaxError where
  line : Nat
  message : Raw
  /-- It was found where the text is over. -/
  atEnd : Bool := false
  deriving Repr

/-! ## Tokens -/

/-- What the sign of a redirection asks for. -/
inductive Opening where
  | file (direction : Direction)
  | join
  /-- A document, whose lines may be freed of tabs at their start. -/
  | document (dropTabs : Bool)
  deriving DecidableEq, Repr

/-- A token of a script. -/
inductive Token where
  | finish
  | newline
  | semicolon
  | background
  | and
  | or
  | pipe
  | openParen
  | closeParen
  | caseEnd
  | redirect (stream : Nat) (opening : Opening)
  | word (pieces : Word) (isQuoted : Bool)
  | keyword (text : Raw)

/-- The words that have a meaning of their own where a command begins. -/
def keywords : List Raw :=
  ["!", "case", "do", "done", "elif", "else", "esac", "fi", "for", "if", "in", "then", "until", "while",
    "\x7b", "\x7d"]

/-- The built-in commands that are found before functions, and whose trouble ends a script. -/
def specialNames : List Raw :=
  [".", ":", "break", "continue", "eval", "exec", "exit", "export", "local", "readonly", "return", "set", "shift",
    "times", "trap", "unset"]

/-- How a token is called in diagnostics. -/
def Token.name : Token → Raw
  | .finish => "end of file"
  | .newline => "newline"
  | .semicolon => "\";\""
  | .background => "\"&\""
  | .and => "\"&&\""
  | .or => "\"||\""
  | .pipe => "\"|\""
  | .openParen => "\"(\""
  | .closeParen => "\")\""
  | .caseEnd => "\";;\""
  | .redirect _ _ => "redirection"
  | .word _ _ => "word"
  | .keyword text => "\"" ++ text ++ "\""

/-- Whether a token is a keyword. -/
def Token.isKeyword (t : Token) (text : Raw) : Bool :=
  match t with
  | .keyword k => k = text
  | _ => false

/-- Whether a list of commands may end before a token. -/
def Token.endsList : Token → Bool
  | .finish | .closeParen | .caseEnd => true
  | .keyword k => ["do", "done", "elif", "else", "esac", "fi", "then", "\x7d"].contains k
  | _ => false

/-- The text of a word without quotes and without anything to put in. -/
def bareText? : Word → Option Raw
  | [.bare text] => some text
  | _ => none

/-- The text of a piece without what is put in. -/
def plainText : Piece → Raw
  | .bare text | .literal text | .single text => text
  | .double pieces => plainTexts pieces
  | _ => ""
where
  /-- The text of some pieces without what is put in. -/
  plainTexts : List Piece → Raw
    | [] => ""
    | piece :: rest => plainText piece ++ plainTexts rest

/-- Whether a character may begin a name. -/
def isNameStart (c : Char) : Bool := c.isAlpha || c = '_'

/-- Whether a character may stand in a name. -/
def isNameChar (c : Char) : Bool := c.isAlphanum || c = '_'

/-- Whether a text is a name. -/
def isName (text : Raw) : Bool :=
  match text.toList with
  | c :: cs => isNameStart c && cs.all isNameChar
  | [] => false

/-- A word as an assignment: the name before the sign and the word behind it. -/
def assignment? : Word → Option (Raw × Word)
  | .bare text :: rest =>
    let name := text.toList.takeWhile isNameChar
    match text.toList.drop name.length with
    | '=' :: value =>
      if isName (String.ofList name) then
        some (String.ofList name, if value.isEmpty then rest else .bare (String.ofList value) :: rest)
      else none
    | _ => none
  | _ => none

/-! ## Reading -/

/-- What the next token is checked for. -/
structure Check where
  /-- Line ends are passed over. -/
  lines : Bool := false
  keywords : Bool := false
  aliases : Bool := false
  /-- The token is the mark that ends a document. -/
  mark : Bool := false

/-- A document that follows after the line. -/
structure Awaited where
  number : Nat
  mark : Raw
  dropTabs : Bool
  isLiteral : Bool

/-- An alias whose text is being read. -/
structure Expanding where
  name : Raw
  /-- How many characters stand behind its text. -/
  behind : Nat
  /-- Whether the next word may be an alias as well. -/
  goesOn : Bool

/-- How far reading has come. -/
structure Reading where
  rest : List Char
  line : Nat := 1
  /-- The token that was read last. -/
  token : Token := .newline
  /-- The word that was read last. -/
  word : Word := []
  /-- The last token is read once more. -/
  isPushed : Bool := false
  check : Check := {}
  awaited : List Awaited := []
  /-- The documents that were read, the latest first. -/
  documents : List Document := []
  /-- The number of the next document. -/
  nextDocument : Nat := 0
  aliases : List (Raw × Raw) := []
  expanding : List Expanding := []
  /-- The text was over before the end of a document. -/
  isCut : Bool := false

/-- A reader of a part of a script. -/
abbrev Reader := StateT Reading (Except SyntaxError)

/-- End with what is wrong. -/
def wrong {α : Type} (message : Raw) : Reader α := do
  let r ← get
  throw { line := r.line, message, atEnd := r.rest.isEmpty }

/-- The last token cannot stand here; another one may have been expected. -/
def unexpected {α : Type} (expected : Option Raw) : Reader α := do
  let name := (← get).token.name
  let text := match expected with
    | none => name ++ " unexpected"
    | some other => name ++ " unexpected (expecting " ++ other ++ ")"
  wrong text

/-- Read the last token once more. -/
def pushBack : Reader Unit :=
  modify fun r => { r with isPushed := true }

/-- Check the next token in a way. -/
def checkFor (check : Check) : Reader Unit :=
  modify fun r => { r with check }

/-- What the first token of a command after others is checked for. -/
def commandCheck : Check := { lines := true, keywords := true, aliases := true }

/-- Pass over backslashes before line ends. -/
def skipJoins (r : Reading) : Reading :=
  let rec go : List Char → Nat → List Char × Nat
    | '\\' :: '\n' :: rest, line => go rest (line + 1)
    | rest, line => (rest, line)
  match r.rest with
  | '\\' :: '\n' :: _ =>
    let (rest, line) := go r.rest r.line
    { r with rest, line }
  | _ => r

/-- The next character, which is not read yet. -/
def peek : Reader (Option Char) := do
  modify skipJoins
  return (← get).rest.head?

/-- Read one character, whatever it is. -/
def advance : Reader Unit :=
  modify fun r =>
    match r.rest with
    | c :: rest => { r with rest, line := if c = '\n' then r.line + 1 else r.line }
    | [] => r

/-- The next character, which is then read. -/
def next : Reader (Option Char) := do
  let c ← peek
  advance
  return c

/-- Read the next character if it is the given one. -/
def accept (c : Char) : Reader Bool := do
  if (← peek) = some c then
    advance
    return true
  else return false

/-- Read characters as long as a test accepts them. `fuel` bounds their number. -/
def takeName (test : Char → Bool) : Nat → List Char → Reader (List Char)
  | 0, taken => return taken.reverse
  | fuel + 1, taken => do
    match ← peek with
    | some c =>
      if test c then
        advance
        takeName test fuel (c :: taken)
      else return taken.reverse
    | none => return taken.reverse

/-! ## Words -/

/-- What is around a piece of a word. -/
inductive Mode where
  /-- A word by itself. -/
  | word
  /-- The mark of a document, in which nothing is put in. -/
  | mark
  /-- The word of a parameter, up to a brace. -/
  | brace
  /-- The inside of double quotes. -/
  | quotes
  /-- The word of a parameter in double quotes, up to a brace. -/
  | quotedBrace
  /-- An expression, with the number of open brackets. -/
  | arithmetic (depth : Nat)
  /-- The text of a document. -/
  | document
  deriving DecidableEq, Repr

/-- Whether text stands as if in double quotes. -/
def Mode.isQuoted : Mode → Bool
  | .word | .mark | .brace => false
  | _ => true

/-- Whether a character ends a word. -/
def endsWord (c : Char) : Bool := " \t\n;&|()<>".toList.contains c

/-- Whether a character means something in a mode, so that a run of text ends before it. -/
def Mode.stopsAt (m : Mode) (c : Char) : Bool :=
  c = '\\' || c = '$' || c = '\x60' ||
    match m with
    | .word | .mark => c = '\'' || c = '"' || endsWord c
    | .brace => c = '\'' || c = '"' || c = '\x7d'
    | .quotes => c = '"'
    | .quotedBrace => c = '"' || c = '\x7d'
    | .arithmetic _ => c = '(' || c = ')'
    | .document => false

/-- Whether a backslash before a character stands for the character alone where quotes are open. -/
def Mode.escapes (m : Mode) (c : Char) : Bool :=
  c = '\\' || c = '\x60' || c = '$' || (c = '"' && m ≠ .document) || (c = '\x7d' && m = .quotedBrace)

/-- Add text that stands in a mode. The list holds the latest piece first. -/
def addText (m : Mode) (text : List Char) (pieces : List Piece) : List Piece :=
  let text := String.ofList text
  if text.isEmpty then pieces
  else
    match m.isQuoted, pieces with
    | false, .bare before :: rest => .bare (before ++ text) :: rest
    | false, pieces => .bare text :: pieces
    | true, .literal before :: rest => .literal (before ++ text) :: rest
    | true, pieces => .literal text :: pieces

/-- Add a character that means nothing else. -/
def addLiteral (text : Raw) : List Piece → List Piece
  | .literal before :: rest => .literal (before ++ text) :: rest
  | pieces => .literal text :: pieces

/-- Whether a character is a parameter by itself. -/
def isSpecial (c : Char) : Bool := "*@#?-$!".toList.contains c || c.isDigit

/-- The text between backquotes, up to and with the closing one. `inQuotes` tells whether double quotes
    are open around it. -/
def backquoted (inQuotes : Bool) : Nat → List Char → Reader (List Char)
  | 0, taken => return taken.reverse
  | fuel + 1, taken => do
    match ← next with
    | none => wrong "EOF in backquote substitution"
    | some '\x60' => return taken.reverse
    | some '\\' =>
      match (← get).rest with
      | c :: _ =>
        advance
        if c = '\\' || c = '\x60' || c = '$' || (inQuotes && c = '"') then backquoted inQuotes fuel (c :: taken)
        else backquoted inQuotes fuel (c :: '\\' :: taken)
      | [] => backquoted inQuotes fuel ('\\' :: taken)
    | some c => backquoted inQuotes fuel (c :: taken)

/-- The lines of a document up to its mark, and the text behind it. A line that ends in a backslash
    goes on with the next one, which is not looked at then, unless all is literal. `fuel` bounds the
    lines. -/
def documentText (a : Awaited) : Nat → Bool → List (List Char) → List Char → Nat →
    List Char × List Char × Nat
  | 0, _, lines, rest, count => (lines.reverse.flatten, rest, count)
  | fuel + 1, goesOn, lines, rest, count =>
    let rest := if a.dropTabs && !goesOn then rest.dropWhile (· = '\t') else rest
    let line := rest.takeWhile (· ≠ '\n')
    let after := rest.drop line.length
    if !goesOn && line = a.mark.toList then (lines.reverse.flatten, after.drop 1, count + min 1 after.length)
    else
      match after with
      | [] => ((line :: lines).reverse.flatten, [], count)
      | _ :: after =>
        let goesOn := !a.isLiteral && (line.reverse.takeWhile (· = '\\')).length % 2 = 1
        documentText a fuel goesOn ((line ++ ['\n']) :: lines) after (count + 1)

/-- How the name of a parameter in braces is followed: the name, whether its length is meant, and
    whether all makes sense so far. -/
structure BracedName where
  name : Raw
  isLength : Bool := false
  isGood : Bool := true

/-- Read the name of a parameter after an opening brace. -/
def bracedName (fuel : Nat) : Reader BracedName := do
  let named : Reader Raw := do
    match ← peek with
    | some c =>
      if c.isDigit then return String.ofList (← takeName Char.isDigit fuel [])
      else return String.ofList (← takeName isNameChar fuel [])
    | none => return ""
  match ← peek with
  | none | some '\x7d' => return { name := "", isGood := false }
  | some c =>
    if isNameChar c then return { name := ← named }
    else
      advance
      if c ≠ '#' then
        return { name := String.ofList [c], isGood := isSpecial c }
      else
        match ← peek with
        | none | some '\x7d' => return { name := "#" }
        | some d =>
          if isNameChar d then
            let name ← named
            let isGood := (← peek) = some '\x7d'
            return { name, isLength := true, isGood }
          else
            let before ← get
            advance
            if (← peek) = some '\x7d' then
              return { name := String.ofList [d], isLength := true, isGood := isSpecial d }
            else
              set before
              return { name := "#" }

/-- Read what is done with the value of a parameter, up to its word. The last part tells whether a word
    follows. -/
def operation : Reader (Operation × Bool × Bool) := do
  let byLetter (orEmpty : Bool) : Reader (Operation × Bool × Bool) := do
    match ← next with
    | some '\x7d' => return (.plain, orEmpty, orEmpty)
    | some '-' => return (.default, orEmpty, true)
    | some '+' => return (.alternative, orEmpty, true)
    | some '?' => return (.demand, orEmpty, true)
    | some '=' => return (.assign, orEmpty, true)
    | _ => return (.senseless, orEmpty, true)
  match ← peek with
  | some ':' =>
    advance
    byLetter true
  | some '%' =>
    advance
    return (.dropEnd (← accept '%'), false, true)
  | some '#' =>
    advance
    return (.dropStart (← accept '#'), false, true)
  | _ => byLetter false

mutual

/-- Read the pieces of a word in a mode, after others of which the latest stands first. Gives them in
    order, and whether there were quotes or backslashes. -/
def readPieces (fuel : Nat) (m : Mode) (taken : List Piece) (isQuoted : Bool) : Reader (Word × Bool) := do
  match fuel with
  | 0 => wrong "too long"
  | fuel + 1 =>
    match ← peek with
    | none =>
      match m with
      | .arithmetic _ => wrong "Missing '))'"
      | .quotes | .quotedBrace => wrong "Unterminated quoted string"
      | .brace => wrong "Missing '\x7d'"
      | .word | .mark | .document => return (taken.reverse, isQuoted)
    | some '\\' =>
      advance
      match (← get).rest with
      | [] => readPieces fuel m (addLiteral "\\" taken) isQuoted
      | c :: _ =>
        advance
        let text := if m.isQuoted && !m.escapes c then ['\\', c] else [c]
        readPieces fuel m (addLiteral (String.ofList text) taken) true
    | some '$' =>
      advance
      if m = .mark then readPieces fuel m (addText m ['$'] taken) isQuoted
      else
        match ← readInsertion fuel m with
        | some piece => readPieces fuel m (piece :: taken) isQuoted
        | none => readPieces fuel m (addText m ['$'] taken) isQuoted
    | some '\x60' =>
      advance
      if m = .mark then readPieces fuel m (addText m ['\x60'] taken) isQuoted
      else
        let text ← backquoted m.isQuoted fuel []
        let outer ← get
        set { outer with rest := text, line := 1, awaited := [], isPushed := false, check := {}, expanding := [] }
        let (body, _) ← readList fuel false true none
        let inner ← get
        set { outer with documents := inner.documents, nextDocument := inner.nextDocument }
        readPieces fuel m (.command body :: taken) isQuoted
    | some c =>
      match m, c with
      | .word, '\'' | .mark, '\'' | .brace, '\'' =>
        advance
        let r ← get
        let text := r.rest.takeWhile (· ≠ '\'')
        set { r with rest := r.rest.drop (text.length + 1), line := r.line + text.count '\n' }
        if r.rest.length = text.length then wrong "Unterminated quoted string"
        readPieces fuel m (.single (String.ofList text) :: taken) true
      | .quotes, '"' =>
        advance
        return (taken.reverse, true)
      | .word, '"' | .mark, '"' | .brace, '"' | .quotedBrace, '"' =>
        advance
        let (inside, _) ← readPieces fuel .quotes [] false
        readPieces fuel m (.double inside :: taken) true
      | .brace, '\x7d' | .quotedBrace, '\x7d' =>
        advance
        return (taken.reverse, isQuoted)
      | .arithmetic depth, '(' =>
        advance
        readPieces fuel (.arithmetic (depth + 1)) (addText m ['('] taken) isQuoted
      | .arithmetic (depth + 1), ')' =>
        advance
        readPieces fuel (.arithmetic depth) (addText m [')'] taken) isQuoted
      | .arithmetic 0, ')' =>
        advance
        if ← accept ')' then return (taken.reverse, isQuoted)
        else readPieces fuel m (addText m [')'] taken) isQuoted
      | m, c =>
        if (m = .word || m = .mark) && endsWord c then return (taken.reverse, isQuoted)
        else
          let r ← get
          let text := r.rest.takeWhile fun c => !m.stopsAt c
          set { r with rest := r.rest.drop text.length, line := r.line + text.count '\n' }
          readPieces fuel m (addText m text taken) isQuoted

/-- Read what follows a dollar sign; nothing if the sign stands for itself. -/
def readInsertion (fuel : Nat) (m : Mode) : Reader (Option Piece) := do
  match fuel with
  | 0 => wrong "too long"
  | fuel + 1 =>
    match ← peek with
    | some '(' =>
      advance
      if ← accept '(' then
        let (expression, _) ← readPieces fuel (.arithmetic 0) [] false
        return some (.arithmetic expression)
      else
        let outer ← get
        set { outer with awaited := [], isPushed := false, check := {} }
        let (body, _) ← readList fuel false true none
        let t ← readToken fuel
        match t with
        | .closeParen => pure ()
        | _ => unexpected (some Token.closeParen.name)
        -- Documents of a command in a word have to stand in the word.
        let rest := (← get).rest
        if !(← get).awaited.isEmpty then
          modify fun r => { r with rest := [] }
          readDocuments fuel
        modify fun r => { r with rest, awaited := outer.awaited, isPushed := outer.isPushed, check := outer.check }
        return some (.command body)
    | some '\x7b' =>
      advance
      let n ← bracedName fuel
      let inQuotes := m.isQuoted
      let wordMode : Mode := if inQuotes then .quotedBrace else .brace
      if !n.isGood then
        let (word, _) ← readPieces fuel wordMode [] false
        return some (.parameter n.name .senseless false word)
      else if n.isLength then
        let _ ← next
        return some (.parameter n.name .length false [])
      else
        let (operation, orEmpty, hasWord) ← operation
        if !hasWord then return some (.parameter n.name operation orEmpty [])
        else
          let mode : Mode := match operation with
            | .dropStart _ | .dropEnd _ => .brace
            | _ => wordMode
          let (word, _) ← readPieces fuel mode [] false
          return some (.parameter n.name operation orEmpty word)
    | some c =>
      if isNameStart c then
        return some (.parameter (String.ofList (← takeName isNameChar fuel [])) .plain false [])
      else if isSpecial c then
        advance
        return some (.parameter (String.ofList [c]) .plain false [])
      else return none
    | none => return none

/-- Read the documents that are awaited after a line. -/
def readDocuments (fuel : Nat) : Reader Unit := do
  match fuel with
  | 0 => return ()
  | fuel + 1 =>
    let r ← get
    match r.awaited with
    | [] => return ()
    | a :: awaited =>
      let (text, rest, count) := documentText a (r.rest.length + 1) false [] r.rest 0
      let word ← if a.isLiteral then pure [Piece.literal (String.ofList text)]
        else do
          set { r with rest := text, isPushed := false, check := {}, awaited := [], expanding := [] }
          let (word, _) ← readPieces fuel .document [] false
          pure word
      modify fun s =>
        { r with
          rest, line := r.line + count, awaited
          isCut := s.isCut || rest.isEmpty
          documents := ⟨a.number, word⟩ :: s.documents
          nextDocument := s.nextDocument }
      readDocuments fuel

/-- Read a token as it stands, without keywords and aliases. -/
def readPlain (fuel : Nat) (inMark : Bool) : Reader Token := do
  match fuel with
  | 0 => wrong "too long"
  | fuel + 1 =>
    let c ← peek
    let found (t : Token) : Reader Token := do
      advance
      return t
    match c with
    | none => return .finish
    | some ' ' | some '\t' =>
      advance
      readPlain fuel inMark
    | some '#' =>
      modify fun r => { r with rest := r.rest.dropWhile (· ≠ '\n') }
      readPlain fuel inMark
    | some '\n' => found .newline
    | some '&' =>
      advance
      if ← accept '&' then return .and else return .background
    | some '|' =>
      advance
      if ← accept '|' then return .or else return .pipe
    | some ';' =>
      advance
      if ← accept ';' then return .caseEnd else return .semicolon
    | some '(' => found .openParen
    | some ')' => found .closeParen
    | some _ =>
      let (pieces, isQuoted) ← readPieces fuel (if inMark then .mark else .word) [] false
      let stream? : Option (Option Nat) := match pieces with
        | [] => some none
        | [.bare text] =>
          match text.toList with
          | [d] => if d.isDigit then some (some (d.toNat - 48)) else none
          | _ => none
        | _ => none
      match stream?, ← peek with
      | some stream?, some '>' =>
        if isQuoted then return .word pieces isQuoted
        advance
        let stream := stream?.getD 1
        if ← accept '>' then return .redirect stream (.file .append)
        else if ← accept '|' then return .redirect stream (.file .overwrite)
        else if ← accept '&' then return .redirect stream .join
        else return .redirect stream (.file .output)
      | some stream?, some '<' =>
        if isQuoted then return .word pieces isQuoted
        advance
        let stream := stream?.getD 0
        if ← accept '<' then return .redirect stream (.document (← accept '-'))
        else if ← accept '&' then return .redirect stream .join
        else if ← accept '>' then return .redirect stream (.file .both)
        else return .redirect stream (.file .input)
      | _, _ => return .word pieces isQuoted

/-- Read a token, checked as was asked for. -/
def readToken (fuel : Nat) : Reader Token := do
  match fuel with
  | 0 => wrong "too long"
  | fuel + 1 =>
    let r ← get
    let check := r.check
    set { r with check := {} }
    let t ← if r.isPushed then do
        modify fun r => { r with isPushed := false }
        pure r.token
      else readPlain fuel check.mark
    let t ← if check.lines then skipLines fuel t else pure t
    let r ← get
    -- Aliases whose text is used up may let the next word be one.
    let usedUp := r.expanding.filter fun e => r.rest.length ≤ e.behind
    let follows := match t with
      | .word [.bare text] _ => usedUp.any fun e => e.goesOn && r.rest.length + text.length ≤ e.behind
      | _ => false
    let expanding := if r.expanding.isEmpty then []
      else r.expanding.filter fun e => e.behind < r.rest.length
    let t : Token := match t with
      | .word pieces false =>
        match bareText? pieces with
        | some text => if check.keywords && keywords.contains text then .keyword text else t
        | none => t
      | _ => t
    let alias? := match t with
      | .word pieces false =>
        match bareText? pieces with
        | some text =>
          if (check.aliases || follows) && !(r.expanding.any fun e => e.name = text && e.behind ≤ r.rest.length) then
            (r.aliases.lookup text).map fun value => (text, value)
          else none
        | none => none
      | _ => none
    match alias? with
    | some (name, value) =>
      let goesOn := match value.toList.getLast? with
        | some c => c = ' ' || c = '\t'
        | none => false
      set { r with
        rest := value.toList ++ r.rest
        expanding := ⟨name, r.rest.length, goesOn⟩ :: expanding
        check }
      readToken fuel
    | none =>
      set { r with
        token := t, expanding
        word := match t with
          | .word pieces _ => pieces
          | .keyword text => [.bare text]
          | _ => r.word }
      return t

/-- Pass over line ends from a token on. -/
def skipLines (fuel : Nat) (t : Token) : Reader Token := do
  match fuel with
  | 0 => wrong "too long"
  | fuel + 1 =>
    match t with
    | .newline =>
      readDocuments fuel
      skipLines fuel (← readPlain fuel false)
    | t => return t

/-- Read commands one after the other. With `isLine`, up to the end of the line; else up to a token
    that may end a list, which may be the first one if `mayEnd` is set. Gives the commands, if there are
    any, and whether the script is over. -/
def readList (fuel : Nat) (isLine mayEnd : Bool) (before : Option Tree) : Reader (Option Tree × Bool) := do
  match fuel with
  | 0 => wrong "too long"
  | fuel + 1 =>
    checkFor { commandCheck with lines := !isLine }
    let t ← readToken fuel
    match t with
    | .newline =>
      readDocuments fuel
      return (before, false)
    | .finish =>
      readDocuments fuel
      pushBack
      return (before, true)
    | t =>
      pushBack
      if !isLine && mayEnd && t.endsList then return (before, false)
      let tree ← readAndOr fuel
      let t ← readToken fuel
      let tree := match t, tree with
        | .background, .pipeline stages _ => .pipeline stages true
        | .background, .redirected _ body redirects => .background body redirects
        | .background, tree => .background tree []
        | _, tree => tree
      let all := match before with
        | none => tree
        | some first => .sequence first tree
      match t with
      | .finish =>
        readDocuments fuel
        pushBack
        return (some all, true)
      | .newline =>
        pushBack
        readList fuel isLine true (some all)
      | .background | .semicolon => readList fuel isLine true (some all)
      | _ =>
        if isLine then unexpected none
        pushBack
        return (some all, false)

/-- Read commands that must be there, up to a token that may end a list. -/
def readBody (fuel : Nat) : Reader Tree := do
  match fuel with
  | 0 => wrong "too long"
  | fuel + 1 =>
    let (tree, _) ← readList fuel false false none
    return tree.getD (.pipeline [] false)

/-- Read pipelines joined by conditions. -/
def readAndOr (fuel : Nat) : Reader Tree := do
  match fuel with
  | 0 => wrong "too long"
  | fuel + 1 => readConditions fuel (← readPipeline fuel)

/-- Read the pipelines that depend on others. -/
def readConditions (fuel : Nat) (first : Tree) : Reader Tree := do
  match fuel with
  | 0 => wrong "too long"
  | fuel + 1 =>
    match ← readToken fuel with
    | .and =>
      checkFor commandCheck
      readConditions fuel (.andThen first (← readPipeline fuel))
    | .or =>
      checkFor commandCheck
      readConditions fuel (.orElse first (← readPipeline fuel))
    | _ =>
      pushBack
      return first

/-- Read a pipeline. -/
def readPipeline (fuel : Nat) : Reader Tree := do
  match fuel with
  | 0 => wrong "too long"
  | fuel + 1 =>
    let isNegated := (← readToken fuel).isKeyword "!"
    if isNegated then checkFor { keywords := true, aliases := true } else pushBack
    let first ← readCommand fuel
    let stages ← readStages fuel [first]
    let tree := match stages with
      | [only] => only
      | stages => .pipeline stages false
    return if isNegated then .negated tree else tree

/-- Read the commands behind pipes, after those before, the latest of which stands first. -/
def readStages (fuel : Nat) (before : List Tree) : Reader (List Tree) := do
  match fuel with
  | 0 => wrong "too long"
  | fuel + 1 =>
    match ← readToken fuel with
    | .pipe =>
      checkFor commandCheck
      let stage ← readCommand fuel
      readStages fuel (stage :: before)
    | _ =>
      pushBack
      return before.reverse

/-- Read a keyword that has to follow. -/
def expectKeyword (fuel : Nat) (text : Raw) : Reader Unit := do
  match fuel with
  | 0 => wrong "too long"
  | fuel + 1 =>
    if !(← readToken fuel).isKeyword text then unexpected (some ("\"" ++ text ++ "\""))

/-- Read one command. -/
def readCommand (fuel : Nat) : Reader Tree := do
  match fuel with
  | 0 => wrong "too long"
  | fuel + 1 =>
    let t ← readToken fuel
    let line := (← get).line
    match t with
    | .word _ _ | .redirect _ _ =>
      pushBack
      readSimple fuel line true [] [] []
    | .openParen =>
      let body ← readBody fuel
      match ← readToken fuel with
      | .closeParen => pure ()
      | _ => unexpected (some Token.closeParen.name)
      checkFor { keywords := true, aliases := true }
      return .subshell line body (← readRedirects fuel [])
    | .keyword "\x7b" =>
      let body ← readBody fuel
      expectKeyword fuel "\x7d"
      readAround fuel line body
    | .keyword "if" =>
      let tree ← readChoice fuel
      expectKeyword fuel "fi"
      readAround fuel line tree
    | .keyword "while" | .keyword "until" =>
      let test ← readBody fuel
      expectKeyword fuel "do"
      let body ← readBody fuel
      expectKeyword fuel "done"
      readAround fuel line (.repeated (t.isKeyword "until") test body)
    | .keyword "for" =>
      let t ← readToken fuel
      let name ← match t with
        | .word [.bare name] false => if isName name then pure name else wrong "Bad for loop variable"
        | _ => wrong "Bad for loop variable"
      checkFor commandCheck
      let t ← readToken fuel
      let words ← if t.isKeyword "in" then readForWords fuel []
        else do
          match t with
          | .semicolon => pure ()
          | _ => pushBack
          pure [[Piece.double [.parameter "@" .plain false []]]]
      checkFor commandCheck
      expectKeyword fuel "do"
      let body ← readBody fuel
      expectKeyword fuel "done"
      readAround fuel line (.forEach line name words body)
    | .keyword "case" =>
      let t ← readToken fuel
      let subject ← match t with
        | .word pieces _ => pure pieces
        | _ => unexpected (some (Token.word [] false).name)
      checkFor commandCheck
      expectKeyword fuel "in"
      let cases ← readCases fuel []
      readAround fuel line (.select line subject cases)
    | _ => unexpected none

/-- Read the redirections after a command that others make up. -/
def readAround (fuel : Nat) (line : Nat) (body : Tree) : Reader Tree := do
  match fuel with
  | 0 => wrong "too long"
  | fuel + 1 =>
    checkFor { keywords := true, aliases := true }
    let redirects ← readRedirects fuel []
    -- A part that runs by itself takes the outer redirections in place of its own.
    match body with
    | .subshell own inside _ => return if redirects.isEmpty then body else .subshell own inside redirects
    | body => return if redirects.isEmpty then body else .redirected line body redirects

/-- Read the test of a choice and what depends on it. -/
def readChoice (fuel : Nat) : Reader Tree := do
  match fuel with
  | 0 => wrong "too long"
  | fuel + 1 =>
    let test ← readBody fuel
    expectKeyword fuel "then"
    let body ← readBody fuel
    let t ← readToken fuel
    if t.isKeyword "elif" then return .choice test body (some (← readChoice fuel))
    else if t.isKeyword "else" then return .choice test body (some (← readBody fuel))
    else
      pushBack
      return .choice test body none

/-- Read the words that a loop goes through. -/
def readForWords (fuel : Nat) (before : List Word) : Reader (List Word) := do
  match fuel with
  | 0 => wrong "too long"
  | fuel + 1 =>
    match ← readToken fuel with
    | .word pieces _ => readForWords fuel (pieces :: before)
    | .newline | .semicolon => return before.reverse
    | _ => unexpected none

/-- Read the cases of a selection. -/
def readCases (fuel : Nat) (before : List (List Word × Option Tree)) : Reader (List (List Word × Option Tree)) := do
  match fuel with
  | 0 => wrong "too long"
  | fuel + 1 =>
    checkFor { lines := true, keywords := true }
    let t ← readToken fuel
    if t.isKeyword "esac" then return before.reverse
    match t with
    | .openParen =>
      let _ ← readToken fuel
    | _ => pure ()
    let patterns ← readPatterns fuel []
    match (← get).token with
    | .closeParen => pure ()
    | _ => unexpected (some Token.closeParen.name)
    let (body, _) ← readList fuel false true none
    let all := (patterns, body) :: before
    checkFor { lines := true, keywords := true }
    let t ← readToken fuel
    if t.isKeyword "esac" then return all.reverse
    match t with
    | .caseEnd => readCases fuel all
    | _ => unexpected (some Token.caseEnd.name)

/-- Read the patterns of a case, the first of which is the last word. -/
def readPatterns (fuel : Nat) (before : List Word) : Reader (List Word) := do
  match fuel with
  | 0 => wrong "too long"
  | fuel + 1 =>
    let all := (← get).word :: before
    match ← readToken fuel with
    | .pipe =>
      let _ ← readToken fuel
      readPatterns fuel all
    | _ => return all.reverse

/-- Read the redirections that follow. -/
def readRedirects (fuel : Nat) (before : List Redirect) : Reader (List Redirect) := do
  match fuel with
  | 0 => wrong "too long"
  | fuel + 1 =>
    match ← readToken fuel with
    | .redirect stream opening =>
      let r ← readTarget fuel stream opening
      readRedirects fuel (r :: before)
    | _ =>
      pushBack
      return before.reverse

/-- Read the target of a redirection. -/
def readTarget (fuel : Nat) (stream : Nat) (opening : Opening) : Reader Redirect := do
  match fuel with
  | 0 => wrong "too long"
  | fuel + 1 =>
    match opening with
    | .document _ => checkFor { mark := true }
    | _ => pure ()
    match ← readToken fuel with
    | .word pieces isQuoted =>
      match opening with
      | .file direction => return .file stream direction pieces
      | .join =>
        match bareText? pieces with
        | some "-" => return .join stream none
        | some text =>
          match text.toList with
          | [d] => return if d.isDigit then .join stream (some (d.toNat - 48)) else .joinTo stream pieces
          | _ => return .joinTo stream pieces
        | none => return .joinTo stream pieces
      | .document dropTabs =>
        let r ← get
        let number := r.nextDocument
        let a : Awaited := { number, mark := String.join (pieces.map plainText), dropTabs, isLiteral := isQuoted }
        set { r with nextDocument := number + 1, awaited := r.awaited ++ [a] }
        return .document stream number
    | _ => unexpected none

/-- Read a command of words that began in a line, with what was read of it before, the latest first.
    `atStart` tells whether assignments and aliases may still stand here. -/
def readSimple (fuel : Nat) (line : Nat) (atStart : Bool) (assigned : List (Raw × Word))
    (words : List Word) (redirects : List Redirect) : Reader Tree := do
  match fuel with
  | 0 => wrong "too long"
  | fuel + 1 =>
    checkFor { aliases := atStart }
    let t ← readToken fuel
    match t with
    | .word pieces _ =>
      match if atStart then assignment? pieces else none with
      | some a => readSimple fuel line true (a :: assigned) words redirects
      | none => readSimple fuel line false assigned (pieces :: words) redirects
    | .redirect stream opening =>
      let r ← readTarget fuel stream opening
      readSimple fuel line atStart assigned words (r :: redirects)
    | .openParen =>
      match words, assigned, redirects with
      | [name], [], [] => readFunction fuel name
      | _, _, _ =>
        pushBack
        return .simple line assigned.reverse words.reverse redirects.reverse
    | _ =>
      pushBack
      return .simple line assigned.reverse words.reverse redirects.reverse

/-- Read a function from the bracket after its name on. -/
def readFunction (fuel : Nat) (name : Word) : Reader Tree := do
  match fuel with
  | 0 => wrong "too long"
  | fuel + 1 =>
    match ← readToken fuel with
    | .closeParen => pure ()
    | _ => unexpected (some Token.closeParen.name)
    match bareText? name with
    | some text =>
      if !isName text || specialNames.contains text then wrong "Bad function name"
      checkFor commandCheck
      let line := (← get).line
      return .define text line (← readCommand fuel)
    | none => wrong "Bad function name"

end

/-- Read the next line of commands. Gives them, if there are any, and whether the script is over. -/
def readLine : Reader (Option Tree × Bool) := do
  modify fun r => { r with isPushed := false, awaited := [] }
  readList manyRounds true false none

end Script

end Conch
