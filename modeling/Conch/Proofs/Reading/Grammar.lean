-- SUMMARY: The grammar of quoted words, and that finding the words of a line is reading it by this grammar.
import Mathlib.Data.List.Induction
import Conch.Proofs.Reading.Words

/-!
# The grammar of lines

A word is written as a sequence of pieces: characters that stand for themselves,
escaped characters, and runs in single or double quotes. A line is words with
blanks between them. The grammar says what a text may look like and what its
words are, without any state of a scan.

`tokenize` accepts exactly the lines of the grammar and gives their words, the
empty ones left out. A text that is no line has one of three faults, and these
are told by the grammar too: what comes before the open quotation or the last
backslash is a line.
-/

namespace Conch

namespace Grammar

/-! ## Words -/

/-- What stands between double quotes: characters for themselves, and escaped ones. -/
inductive Item where
  | char (c : Char) (h : c ≠ '"' ∧ c ≠ '\\')
  | escaped (c : Char)

/-- How an item is written. -/
def Item.text : Item → List Char
  | char c _ => [c]
  | escaped c => ['\\', c]

/-- The character that an item stands for. -/
def Item.value : Item → Char
  | char c _ => c
  | escaped c => c

/-- A character that stands for itself outside quotes. -/
def IsBare (c : Char) : Prop :=
  isBlank c = false ∧ c ≠ '\\' ∧ c ≠ '\'' ∧ c ≠ '"'

instance (c : Char) : Decidable (IsBare c) :=
  inferInstanceAs (Decidable (_ ∧ _))

/-- A piece of a word. -/
inductive Piece where
  | bare (c : Char) (h : IsBare c)
  | escaped (c : Char)
  /-- Between single quotes a backslash is a character like others. -/
  | single (cs : List Char) (h : '\'' ∉ cs)
  | double (items : List Item)

/-- How a piece is written. -/
def Piece.text : Piece → List Char
  | bare c _ => [c]
  | escaped c => ['\\', c]
  | single cs _ => '\'' :: cs ++ ['\'']
  | double items => '"' :: items.flatMap Item.text ++ ['"']

/-- The characters that a piece stands for. -/
def Piece.chars : Piece → List Char
  | bare c _ => [c]
  | escaped c => [c]
  | single cs _ => cs
  | double items => items.map Item.value

/-- A word: some pieces without a blank between them. -/
structure Word where
  pieces : List Piece
  ne_nil : pieces ≠ []

/-- How a word is written. -/
def Word.text (w : Word) : List Char := w.pieces.flatMap Piece.text

/-- The characters that a word stands for. There may be none. -/
def Word.chars (w : Word) : List Char := w.pieces.flatMap Piece.chars

/-- A word with one more piece at its end. -/
def Word.snoc (w : Word) (p : Piece) : Word := ⟨w.pieces ++ [p], by simp⟩

theorem Word.snoc_text (w : Word) (p : Piece) : (w.snoc p).text = w.text ++ p.text := by
  simp [Word.text, Word.snoc]

/-! ## Lines -/

/-- A text that has only blanks. -/
def IsGap (cs : List Char) : Prop := ∀ c ∈ cs, isBlank c = true

/-- A text is a line with certain words: at least one blank is between any two of them, and there
    may be blanks at both ends. -/
inductive Line : List Char → List Word → Prop where
  | gap {cs : List Char} (h : IsGap cs) : Line cs []
  | last {lead : List Char} (hlead : IsGap lead) (w : Word) : Line (lead ++ w.text) [w]
  | more {lead rest : List Char} {c : Char} {ws : List Word} (hlead : IsGap lead) (w : Word)
      (hc : isBlank c = true) (hrest : Line rest ws) : Line (lead ++ w.text ++ c :: rest) (w :: ws)

/-- What some words stand for, in order and without the empty ones. -/
def decode (ws : List Word) : List String :=
  (ws.map fun w => String.ofList w.chars).filter (· ≠ "")

/-- A text ends in a backslash that is neither inside single quotes nor itself escaped. -/
inductive EndsInEscape : List Char → Prop where
  | outside {line : List Char} {ws : List Word} (h : Line line ws) : EndsInEscape (line ++ ['\\'])
  | inDouble {line : List Char} {ws : List Word} (h : Line line ws) (items : List Item) :
      EndsInEscape (line ++ '"' :: items.flatMap Item.text ++ ['\\'])

/-- A text ends inside a quotation of a certain kind. Between double quotes an escape may be open too. -/
inductive EndsInside : Quote → List Char → Prop where
  | single {line cs : List Char} {ws : List Word} (h : Line line ws) (hcs : '\'' ∉ cs) :
      EndsInside .single (line ++ '\'' :: cs)
  | double {line : List Char} {ws : List Word} (h : Line line ws) (items : List Item) :
      EndsInside .double (line ++ '"' :: items.flatMap Item.text)
  | doubleEscape {line : List Char} {ws : List Word} (h : Line line ws) (items : List Item) :
      EndsInside .double (line ++ '"' :: items.flatMap Item.text ++ ['\\'])

/-! ## The scan of what is written -/

/-- Between single quotes every character but the quote belongs to the word. -/
theorem wordsFrom_single {cs : List Char} (h : '\'' ∉ cs) (word rest : List Char) :
    wordsFrom .single word (cs ++ rest) = wordsFrom .single (cs.reverse ++ word) rest := by
  induction cs generalizing word with
  | nil => rfl
  | cons c cs ih =>
    rw [List.mem_cons, not_or] at h
    have hmeaning : Quoting.single.meaning c = .literal := if_neg (Ne.symm h.1)
    have hnext : Quoting.single.next c = .single := if_neg (Ne.symm h.1)
    simp [wordsFrom, hmeaning, hnext, ih h.2]

/-- Between double quotes the items add what they stand for to the word. -/
theorem wordsFrom_double (items : List Item) (word rest : List Char) :
    wordsFrom .double word (items.flatMap Item.text ++ rest) =
      wordsFrom .double ((items.map Item.value).reverse ++ word) rest := by
  induction items generalizing word with
  | nil => rfl
  | cons item items ih =>
    rw [List.flatMap_cons, List.append_assoc, List.map_cons, List.reverse_cons, List.append_assoc]
    cases item with
    | char c h =>
      have hmeaning : Quoting.double.meaning c = .literal := by simp [Quoting.meaning, h]
      have hnext : Quoting.double.next c = .double := by simp [Quoting.next, h]
      simp [Item.text, Item.value, wordsFrom, hmeaning, hnext, ih]
    | escaped c =>
      simp [Item.text, Item.value, wordsFrom, Quoting.meaning, Quoting.next, ih]

/-- A piece adds the characters that it stands for to the word being read. -/
theorem Piece.spells (p : Piece) : Spells p.text p.chars := by
  cases p with
  | bare c h =>
    obtain ⟨hblank, hslash, hsingle, hdouble⟩ := h
    refine Spells.bare ?_ ?_ hblank
    · simp [Quoting.meaning, hslash, hsingle, hdouble]
    · simp [Quoting.next, hslash, hsingle, hdouble]
  | escaped c => exact Spells.escape c
  | single cs h =>
    intro word rest
    have hopen : wordsFrom .plain word ('\'' :: (cs ++ '\'' :: rest)) =
        wordsFrom .single word (cs ++ '\'' :: rest) := rfl
    rw [Piece.text, List.cons_append, List.cons_append, List.append_assoc, List.singleton_append, hopen,
      wordsFrom_single h]
    rfl
  | double items =>
    intro word rest
    have hopen : wordsFrom .plain word ('"' :: (items.flatMap Item.text ++ '"' :: rest)) =
        wordsFrom .double word (items.flatMap Item.text ++ '"' :: rest) := rfl
    rw [Piece.text, List.cons_append, List.cons_append, List.append_assoc, List.singleton_append, hopen,
      wordsFrom_double]
    rfl

theorem Word.spells (w : Word) : Spells w.text w.chars := by
  unfold Word.text Word.chars
  induction w.pieces with
  | nil => exact Spells.nil
  | cons p pieces ih => exact p.spells.append ih

theorem wordsFrom_gap {lead : List Char} (h : IsGap lead) (rest : List Char) :
    wordsFrom .plain [] (lead ++ rest) = wordsFrom .plain [] rest := by
  induction lead with
  | nil => rfl
  | cons c lead ih =>
    obtain ⟨hc, hlead⟩ := List.forall_mem_cons.1 h
    obtain ⟨hbare, hnext⟩ := Quoting.next_plain_of_blank hc
    rw [List.cons_append, wordsFrom, hbare, hnext]
    simp only [hc, if_true]
    rw [ih hlead]
    cases wordsFrom .plain [] rest with
    | error e => rfl
    | ok words => rfl

/-- A word counts if it stands for anything. -/
theorem closeWord_decode (w : Word) (ws : List Word) :
    closeWord w.chars.reverse (decode ws) = decode (w :: ws) := by
  unfold decode
  cases hchars : w.chars with
  | nil => simp [hchars]
  | cons c cs =>
    rw [closeWord_of_ne_nil (by simp), List.reverse_reverse, List.map_cons, hchars,
      List.filter_cons_of_pos (by simp)]

/-- A line of the grammar is read as its words. -/
theorem Line.wordsFrom_eq {cs : List Char} {ws : List Word} (h : Line cs ws) :
    wordsFrom .plain [] cs = .ok (decode ws) := by
  induction h with
  | gap h => exact wordsFrom_blanks h
  | @last lead hlead w =>
    have hscan := w.spells [] []
    rw [List.append_nil, List.append_nil] at hscan
    rw [wordsFrom_gap hlead, hscan, ← closeWord_decode w []]
    rfl
  | @more lead rest c ws hlead w hc hrest ih =>
    obtain ⟨hbare, hnext⟩ := Quoting.next_plain_of_blank hc
    rw [List.append_assoc, wordsFrom_gap hlead, w.spells, List.append_nil, wordsFrom, hbare, hnext]
    simp only [hc, if_true]
    rw [ih, ← closeWord_decode w ws]
    rfl

/-! ## Every text has a shape -/

/-- What a text looks like by the place where the scan of it ends. -/
inductive Shape : Quoting → List Char → Prop where
  | plain {cs : List Char} {ws : List Word} (h : Line cs ws) : Shape .plain cs
  | escape {line : List Char} {ws : List Word} (h : Line line ws) : Shape .escape (line ++ ['\\'])
  | single {line cs : List Char} {ws : List Word} (h : Line line ws) (hcs : '\'' ∉ cs) :
      Shape .single (line ++ '\'' :: cs)
  | double {line : List Char} {ws : List Word} (h : Line line ws) (items : List Item) :
      Shape .double (line ++ '"' :: items.flatMap Item.text)
  | doubleEscape {line : List Char} {ws : List Word} (h : Line line ws) (items : List Item) :
      Shape .doubleEscape (line ++ '"' :: items.flatMap Item.text ++ ['\\'])

/-- A blank behind a line belongs to it. -/
theorem Line.snoc_blank {cs : List Char} {ws : List Word} (h : Line cs ws) {c : Char} (hc : isBlank c = true) :
    Line (cs ++ [c]) ws := by
  induction h with
  | gap h =>
    refine .gap ?_
    intro d hd
    rcases List.mem_append.1 hd with hold | hnew
    · exact h d hold
    · rw [List.mem_singleton.1 hnew]
      exact hc
  | last hlead w => exact .more hlead w hc (.gap fun _ hd => absurd hd List.not_mem_nil)
  | more hlead w hd hrest ih =>
    rw [List.append_assoc, List.cons_append]
    exact .more hlead w hd ih

/-- A piece behind a line is a word of its own after a blank, and else the end of the last word. -/
theorem Line.snoc_piece {cs : List Char} {ws : List Word} (h : Line cs ws) (p : Piece) :
    ∃ ws', Line (cs ++ p.text) ws' := by
  induction h with
  | gap h =>
    refine ⟨[⟨[p], List.cons_ne_nil p []⟩], ?_⟩
    have hline := Line.last h ⟨[p], List.cons_ne_nil p []⟩
    rwa [Word.text, List.flatMap_singleton] at hline
  | last hlead w =>
    refine ⟨[w.snoc p], ?_⟩
    rw [List.append_assoc, ← Word.snoc_text]
    exact .last hlead _
  | more hlead w hc hrest ih =>
    obtain ⟨ws', hws'⟩ := ih
    refine ⟨w :: ws', ?_⟩
    rw [List.append_assoc, List.cons_append]
    exact .more hlead w hc hws'

theorem flatMap_text_snoc (items : List Item) (item : Item) :
    (items ++ [item]).flatMap Item.text = items.flatMap Item.text ++ item.text := by
  simp

/-- One more character, by the place where it stands. -/
theorem Shape.snoc {q : Quoting} {cs : List Char} (h : Shape q cs) (c : Char) :
    Shape (q.next c) (cs ++ [c]) := by
  cases h with
  | plain h =>
    by_cases hslash : c = '\\'
    · subst hslash
      exact .escape h
    by_cases hsingle : c = '\''
    · subst hsingle
      exact .single h List.not_mem_nil
    by_cases hdouble : c = '"'
    · subst hdouble
      exact .double h []
    have hnext : Quoting.plain.next c = .plain := by simp [Quoting.next, hslash, hsingle, hdouble]
    rw [hnext]
    cases hblank : isBlank c with
    | true => exact .plain (h.snoc_blank hblank)
    | false =>
      obtain ⟨ws', hws'⟩ := h.snoc_piece (.bare c ⟨hblank, hslash, hsingle, hdouble⟩)
      exact .plain hws'
  | escape h =>
    obtain ⟨ws', hws'⟩ := h.snoc_piece (.escaped c)
    rw [List.append_assoc]
    exact .plain hws'
  | @single line cs ws h hcs =>
    by_cases hquote : c = '\''
    · subst hquote
      obtain ⟨ws', hws'⟩ := h.snoc_piece (.single cs hcs)
      rw [List.append_assoc]
      exact .plain hws'
    · have hnext : Quoting.single.next c = .single := if_neg hquote
      rw [hnext, List.append_assoc, List.cons_append]
      refine .single h ?_
      rw [List.mem_append, List.mem_singleton, not_or]
      exact ⟨hcs, Ne.symm hquote⟩
  | double h items =>
    by_cases hslash : c = '\\'
    · subst hslash
      exact .doubleEscape h items
    by_cases hquote : c = '"'
    · subst hquote
      obtain ⟨ws', hws'⟩ := h.snoc_piece (.double items)
      rw [List.append_assoc]
      exact .plain hws'
    have hnext : Quoting.double.next c = .double := by simp [Quoting.next, hslash, hquote]
    have hshape := Shape.double h (items ++ [.char c ⟨hquote, hslash⟩])
    rw [flatMap_text_snoc] at hshape
    rw [hnext, List.append_assoc]
    exact hshape
  | doubleEscape h items =>
    have hshape := Shape.double h (items ++ [.escaped c])
    rw [flatMap_text_snoc] at hshape
    rw [List.append_assoc, List.append_assoc]
    exact hshape

/-- Every text has the shape that the end of its scan calls for. -/
theorem shape_after (cs : List Char) : Shape (Quoting.plain.after cs) cs := by
  induction cs using List.reverseRecOn with
  | nil => exact .plain (.gap fun _ h => absurd h List.not_mem_nil)
  | append_singleton cs c ih =>
    rw [Quoting.after_append]
    exact ih.snoc c

/-! ## A text has one shape only -/

/-- The scan of a text that has words ends outside quotes and not after a backslash. -/
theorem after_eq_plain_of_ok {q : Quoting} {word cs : List Char} {words : List String}
    (h : wordsFrom q word cs = .ok words) : q.after cs = .plain := by
  have hend : ∀ e, (q.after cs).ending ≠ some e := by
    intro e hend
    rw [← wordsFrom_eq_error_iff, h] at hend
    cases hend
  cases hq : q.after cs with
  | plain => rfl
  | escape => exact absurd (congrArg Quoting.ending hq) (hend _)
  | single => exact absurd (congrArg Quoting.ending hq) (hend _)
  | double => exact absurd (congrArg Quoting.ending hq) (hend _)
  | doubleEscape => exact absurd (congrArg Quoting.ending hq) (hend _)

theorem after_single {cs : List Char} (h : '\'' ∉ cs) : Quoting.single.after cs = .single := by
  induction cs with
  | nil => rfl
  | cons c cs ih =>
    rw [List.mem_cons, not_or] at h
    have hnext : Quoting.single.next c = .single := if_neg (Ne.symm h.1)
    rw [Quoting.after_cons, hnext]
    exact ih h.2

theorem after_double (items : List Item) : Quoting.double.after (items.flatMap Item.text) = .double := by
  induction items with
  | nil => rfl
  | cons item items ih =>
    rw [List.flatMap_cons, Quoting.after_append]
    cases item with
    | char c h =>
      have hnext : Quoting.double.next c = .double := by simp [Quoting.next, h]
      rw [Item.text, Quoting.after_cons, hnext]
      exact ih
    | escaped c => exact ih

/-- A shape tells where the scan of a text ends. -/
theorem Shape.after_eq {q : Quoting} {cs : List Char} (h : Shape q cs) : Quoting.plain.after cs = q := by
  have hline : ∀ {line : List Char} {ws : List Word}, Line line ws → Quoting.plain.after line = .plain :=
    fun h => after_eq_plain_of_ok h.wordsFrom_eq
  cases h with
  | plain h => exact hline h
  | escape h =>
    rw [Quoting.after_append, hline h]
    rfl
  | single h hcs =>
    rw [Quoting.after_append, hline h]
    exact after_single hcs
  | double h items =>
    rw [Quoting.after_append, hline h]
    exact after_double items
  | doubleEscape h items =>
    rw [Quoting.after_append, Quoting.after_append, hline h]
    exact congrArg (Quoting.after · ['\\']) (after_double items)

/-! ## Faults -/

theorem endsInEscape_iff {cs : List Char} :
    EndsInEscape cs ↔ (Quoting.plain.after cs).ending = some .trailingEscape := by
  constructor
  · intro h
    cases h with
    | outside h => rw [(Shape.escape h).after_eq]; rfl
    | inDouble h items => rw [(Shape.doubleEscape h items).after_eq]; rfl
  · intro hend
    have hshape := shape_after cs
    generalize Quoting.plain.after cs = q at hend hshape
    cases hshape with
    | plain h => cases hend
    | escape h => exact .outside h
    | single h hcs => cases hend
    | double h items => cases hend
    | doubleEscape h items => exact .inDouble h items

/-- Of the two faults that a text can have at once, the open escape comes first. -/
theorem endsInside_iff {quote : Quote} {cs : List Char} :
    ¬ EndsInEscape cs ∧ EndsInside quote cs ↔
      (Quoting.plain.after cs).ending = some (.unterminated quote) := by
  rw [endsInEscape_iff]
  constructor
  · rintro ⟨hescape, h⟩
    cases h with
    | single h hcs => rw [(Shape.single h hcs).after_eq]; rfl
    | double h items => rw [(Shape.double h items).after_eq]; rfl
    | doubleEscape h items =>
      rw [(Shape.doubleEscape h items).after_eq] at hescape
      exact absurd rfl hescape
  · intro hend
    refine ⟨by rw [hend]; simp, ?_⟩
    have hshape := shape_after cs
    generalize Quoting.plain.after cs = q at hend hshape
    cases hshape with
    | plain h => cases hend
    | escape h => cases hend
    | single h hcs =>
      cases hend
      exact .single h hcs
    | double h items =>
      cases hend
      exact .double h items
    | doubleEscape h items => cases hend

/-! ## The words of a line -/

theorem tokenize_eq_ok_iff {line : String} {words : List String} :
    tokenize line = .ok words ↔ ∃ ws, Line line.toList ws ∧ words = decode ws := by
  constructor
  · intro hwords
    have hshape := shape_after line.toList
    rw [after_eq_plain_of_ok hwords] at hshape
    generalize htext : line.toList = cs at hshape
    cases hshape with
    | plain h =>
      refine ⟨_, h, ?_⟩
      rw [tokenize, htext, h.wordsFrom_eq] at hwords
      exact (Except.ok.inj hwords).symm
  · rintro ⟨ws, hline, rfl⟩
    exact hline.wordsFrom_eq

end Grammar

/-- The words of a text are what the grammar says: it has words exactly if it is a line, and these are
    the decoded words without the empty ones. Otherwise it ends in an open escape, or else inside a
    quotation, and the fault tells which. -/
theorem tokenize_reads_grammar (line : String) :
    (∀ words, tokenize line = .ok words ↔
      ∃ ws, Grammar.Line line.toList ws ∧ words = Grammar.decode ws) ∧
    (∀ words, tokenize line = .ok words → "" ∉ words) ∧
    (tokenize line = .error .trailingEscape ↔ Grammar.EndsInEscape line.toList) ∧
    ∀ quote, tokenize line = .error (.unterminated quote) ↔
      ¬ Grammar.EndsInEscape line.toList ∧ Grammar.EndsInside quote line.toList := by
  refine ⟨fun words => Grammar.tokenize_eq_ok_iff, fun words => empty_notMem_tokenize, ?_, ?_⟩
  · rw [tokenize_eq_error_iff, Grammar.endsInEscape_iff]
  · intro quote
    rw [tokenize_eq_error_iff, Grammar.endsInside_iff]

/-- Bare, double-quoted and single-quoted pieces in one word, an empty word, and an escaped blank. -/
theorem tokenize_reads_grammar_of_mixed_pieces :
    tokenize " a\"b\\\" c\"'d\\'e ''\"\" \\ \t" = .ok ["ab\" cd\\e", " "] ∧
      (∃ ws, Grammar.Line " a\"b\\\" c\"'d\\'e ''\"\" \\ \t".toList ws ∧
        ["ab\" cd\\e", " "] = Grammar.decode ws) ∧
      "" ∉ ["ab\" cd\\e", " "] := by
  have hwords : tokenize " a\"b\\\" c\"'d\\'e ''\"\" \\ \t" = .ok ["ab\" cd\\e", " "] := by decide
  have hgrammar := tokenize_reads_grammar " a\"b\\\" c\"'d\\'e ''\"\" \\ \t"
  exact ⟨hwords, (hgrammar.1 _).1 hwords, hgrammar.2.1 _ hwords⟩

end Conch
