-- SUMMARY: How the words of a line come about: pieces that spell a word, where a line may end, and blank lines.
import Mathlib.Data.List.Forall2
import Mathlib.Data.List.TakeWhile
import Conch.Token

/-!
# Words, piece by piece

The words of a line are found by one scan. Three things are said about it here.
A piece of a line that begins and ends outside quotes adds its characters to the
word being read, whatever stands around it. Whether a line has words at all
depends on the place where the scan of it ends and on nothing else. And a line of
blanks has no words.
-/

namespace Conch

/-! ## Finished words -/

@[simp] theorem closeWord_nil (rest : List String) : closeWord [] rest = rest := rfl

theorem closeWord_of_ne_nil {word : List Char} (h : word ≠ []) (rest : List String) :
    closeWord word rest = String.ofList word.reverse :: rest := by
  cases word with
  | nil => exact absurd rfl h
  | cons c cs => rfl

/-- A finished word is never empty. -/
theorem empty_notMem_closeWord {word : List Char} {rest : List String} (h : "" ∉ rest) :
    "" ∉ closeWord word rest := by
  cases word with
  | nil => exact h
  | cons c cs =>
    rw [closeWord_of_ne_nil (List.cons_ne_nil c cs), List.mem_cons]
    rintro (heq | hmem)
    · have hnil : (c :: cs).reverse = [] := by
        rw [← String.toList_ofList (l := (c :: cs).reverse), ← heq]
        rfl
      simp at hnil
    · exact h hmem

/-- No word of a line is empty. -/
theorem empty_notMem_wordsFrom {q : Quoting} {word cs : List Char} {words : List String}
    (h : wordsFrom q word cs = .ok words) : "" ∉ words := by
  fun_induction wordsFrom q word cs generalizing words with
  | case1 q word e hend => cases h
  | case2 q word hend =>
    cases h
    exact empty_notMem_closeWord List.not_mem_nil
  | case3 q word c cs hm ih => exact ih h
  | case4 q word c cs hm ih => exact ih h
  | case5 q word c cs hm hblank ih =>
    cases hrest : wordsFrom (q.next c) [] cs with
    | error e => rw [hrest] at h; cases h
    | ok rest =>
      rw [hrest] at h
      cases h
      exact empty_notMem_closeWord (ih hrest)
  | case6 q word c cs hm hblank ih => exact ih h

theorem empty_notMem_tokenize {line : String} {words : List String}
    (h : tokenize line = .ok words) : "" ∉ words :=
  empty_notMem_wordsFrom h

/-! ## Where a line ends -/

/-- A line has no words exactly if its scan ends at a place where no line may end. -/
theorem wordsFrom_eq_error_iff {q : Quoting} {word cs : List Char} {e : LexError} :
    wordsFrom q word cs = .error e ↔ (q.after cs).ending = some e := by
  fun_induction wordsFrom q word cs with
  | case1 q word e' hend => simp [hend, eq_comm]
  | case2 q word hend => simp [hend]
  | case3 q word c cs hm ih => simpa using ih
  | case4 q word c cs hm ih => simpa using ih
  | case5 q word c cs hm hblank ih =>
    rw [Quoting.after_cons, ← ih]
    cases wordsFrom (q.next c) [] cs with
    | error e' => simp [Except.map]
    | ok rest => simp [Except.map]
  | case6 q word c cs hm hblank ih => simpa using ih

theorem tokenize_eq_error_iff {line : String} {e : LexError} :
    tokenize line = .error e ↔ (Quoting.plain.after line.toList).ending = some e :=
  wordsFrom_eq_error_iff

/-- A line that ends outside quotes and not after a backslash has words. -/
theorem exists_tokenize_of_plain {line : String} (h : Quoting.plain.after line.toList = .plain) :
    ∃ words, tokenize line = .ok words := by
  cases hwords : tokenize line with
  | ok words => exact ⟨words, rfl⟩
  | error e =>
    have hend := tokenize_eq_error_iff.1 hwords
    rw [h] at hend
    cases hend

/-! ## Pieces of a word -/

/-- A piece of a line that adds the characters `chars` to the word being read. It begins and ends
    outside quotes. -/
def Spells (piece chars : List Char) : Prop :=
  ∀ word rest, wordsFrom .plain word (piece ++ rest) = wordsFrom .plain (chars.reverse ++ word) rest

namespace Spells

theorem nil : Spells [] [] := fun _ _ => rfl

theorem append {p q cs ds : List Char} (hp : Spells p cs) (hq : Spells q ds) :
    Spells (p ++ q) (cs ++ ds) := by
  intro word rest
  rw [List.append_assoc, hp, hq, List.reverse_append, List.append_assoc]

/-- A backslash makes any character part of the word. -/
theorem escape (c : Char) : Spells ['\\', c] [c] := fun _ _ => rfl

/-- A character that is neither a blank nor a mark stands for itself. -/
theorem bare {c : Char} (hbare : Quoting.plain.meaning c = .bare) (hnext : Quoting.plain.next c = .plain)
    (hblank : isBlank c = false) : Spells [c] [c] := by
  intro word rest
  simp [wordsFrom, hbare, hnext, hblank]

/-- Each character behind a backslash of its own. -/
theorem escapes (cs : List Char) : Spells (cs.flatMap fun c => ['\\', c]) cs := by
  induction cs with
  | nil => exact nil
  | cons c cs ih => exact (escape c).append ih

end Spells

/-- A blank outside quotes ends the word. -/
theorem wordsFrom_space (word rest : List Char) :
    wordsFrom .plain word (' ' :: rest) = (wordsFrom .plain [] rest).map (closeWord word) := rfl

/-- Pieces with single spaces between them are the words that they spell. -/
theorem tokenize_intercalate {pieces words : List String}
    (hspell : List.Forall₂ (fun p w => Spells p.toList w.toList) pieces words)
    (hwords : "" ∉ words) : tokenize (" ".intercalate pieces) = .ok words := by
  induction hspell with
  | nil => rfl
  | @cons piece word pieces words hhead htail ih =>
    rw [List.mem_cons, not_or] at hwords
    have hne : word.toList.reverse ≠ [] := by
      intro hnil
      rw [List.reverse_eq_nil_iff, String.toList_eq_nil_iff] at hnil
      exact hwords.1 hnil.symm
    have hclose : ∀ rest, closeWord word.toList.reverse rest = word :: rest := by
      intro rest
      rw [closeWord_of_ne_nil hne, List.reverse_reverse, String.ofList_toList]
    cases htail with
    | nil =>
      have hscan := hhead [] []
      rw [List.append_nil, List.append_nil] at hscan
      rw [String.intercalate_singleton, tokenize, hscan, ← hclose []]
      rfl
    | @cons piece' word' pieces words hhead' htail =>
      rw [String.intercalate_cons_cons, tokenize, String.toList_append, String.toList_append,
        List.append_assoc, hhead, List.append_nil]
      show wordsFrom .plain _ (' ' :: (" ".intercalate (piece' :: pieces)).toList) = _
      have hrest := ih hwords.2
      rw [tokenize] at hrest
      rw [wordsFrom_space, hrest, ← hclose]
      rfl

/-! ## Blank lines -/

/-- A blank outside quotes parts words and changes nothing else. -/
theorem Quoting.next_plain_of_blank {c : Char} (h : isBlank c = true) :
    Quoting.plain.meaning c = .bare ∧ Quoting.plain.next c = .plain := by
  have hslash : c ≠ '\\' := by rintro rfl; revert h; decide
  have hsingle : c ≠ '\'' := by rintro rfl; revert h; decide
  have hdouble : c ≠ '"' := by rintro rfl; revert h; decide
  simp [Quoting.meaning, Quoting.next, hslash, hsingle, hdouble]

theorem wordsFrom_blanks {cs : List Char} (h : ∀ c ∈ cs, isBlank c = true) :
    wordsFrom .plain [] cs = .ok [] := by
  induction cs with
  | nil => rfl
  | cons c cs ih =>
    rw [List.forall_mem_cons] at h
    obtain ⟨hbare, hnext⟩ := Quoting.next_plain_of_blank h.1
    simp [wordsFrom, hbare, hnext, h.1, ih h.2, Except.map]

theorem isBlank_of_trimBlanks_eq_nil {cs : List Char} (h : trimBlanks cs = []) :
    ∀ c ∈ cs, isBlank c = true := by
  rw [trimBlanks, List.reverse_eq_nil_iff, List.dropWhile_eq_nil_iff] at h
  intro c hc
  by_cases hmem : c ∈ cs.dropWhile isBlank
  · exact h c (List.mem_reverse.2 hmem)
  · rw [← List.takeWhile_append_dropWhile (p := isBlank) (l := cs)] at hc
    rcases List.mem_append.1 hc with htake | hdrop
    · exact List.mem_takeWhile_imp htake
    · exact absurd hdrop hmem

/-- A line that is empty once its ends are trimmed has no words, and no fault either. -/
theorem tokenize_of_trim_eq_empty {line : String} (h : trim line = "") : tokenize line = .ok [] := by
  have hnil : trimBlanks line.toList = [] := by
    rw [← String.toList_eq_nil_iff, trim, String.toList_ofList] at h
    exact h
  exact wordsFrom_blanks (isBlank_of_trimBlanks_eq_nil hnil)

end Conch
