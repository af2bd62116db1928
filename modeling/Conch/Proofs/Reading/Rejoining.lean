-- SUMMARY: Words joined with single spaces are read back exactly if they are plain, by an account of the characters of a scan.
import Conch.Proofs.Reading.Grammar
import Conch.Proofs.Reading.Splitting

/-!
# Joining words again

Joining the words of a line with single spaces gives a line, but not always one with
the same words. Plain words are read back as they were. Words with blanks or marks
never are, also where the marks of several words fit together, as the two quotes of
`it's o'clock` do.

Each character of a text reaches a word, is a mark, or is a gap between words. Joined
words are longer than their letters by one character less than there are words, and
so many gaps are needed to part them. No character is left for a mark.
-/

namespace Conch

/-! ## An account of the characters of a scan -/

/-- How many characters of a text only open, close or escape, when it is read from a given place on. -/
def Quoting.marks : Quoting → List Char → Nat
  | _, [] => 0
  | q, c :: cs =>
    match q.meaning c with
    | .mark => marks (q.next c) cs + 1
    | .literal | .bare => marks (q.next c) cs

/-- How many blanks of a text part words, when it is read from a given place on. -/
def Quoting.gaps : Quoting → List Char → Nat
  | _, [] => 0
  | q, c :: cs =>
    match q.meaning c with
    | .bare => if isBlank c then gaps (q.next c) cs + 1 else gaps (q.next c) cs
    | .literal | .mark => gaps (q.next c) cs

/-- Each character of a text is kept, is a mark, or is a gap. -/
theorem Quoting.length_eq_account (q : Quoting) (cs : List Char) :
    cs.length = (q.kept cs).length + q.marks cs + q.gaps cs := by
  induction cs generalizing q with
  | nil => rfl
  | cons c cs ih =>
    have hrest := ih (q.next c)
    simp only [kept, marks, gaps, List.length_cons]
    cases q.meaning c with
    | literal => simp only [List.length_cons]; omega
    | mark => simp only; omega
    | bare =>
      cases isBlank c with
      | true => simp only [if_true]; omega
      | false => simp only [Bool.false_eq_true, if_false, List.length_cons]; omega

theorem length_closeWord_le (word : List Char) (rest : List String) :
    (closeWord word rest).length ≤ rest.length + 1 := by
  cases word with
  | nil => exact Nat.le_succ _
  | cons c cs => exact Nat.le_refl _

/-- Words are parted by gaps, so there is at most one more of them. -/
theorem length_words_le_gaps {q : Quoting} {word cs : List Char} {words : List String}
    (h : wordsFrom q word cs = .ok words) : words.length ≤ q.gaps cs + 1 := by
  fun_induction wordsFrom q word cs generalizing words with
  | case1 q word e hend => cases h
  | case2 q word hend =>
    cases h
    exact length_closeWord_le word []
  | case3 q word c cs hmeaning ih => simpa [Quoting.gaps, hmeaning] using ih h
  | case4 q word c cs hmeaning ih => simpa [Quoting.gaps, hmeaning] using ih h
  | case5 q word c cs hmeaning hblank ih =>
    cases hrest : wordsFrom (q.next c) [] cs with
    | error e =>
      rw [hrest] at h
      cases h
    | ok rest =>
      rw [hrest] at h
      cases h
      have hgaps : q.gaps (c :: cs) = (q.next c).gaps cs + 1 := by simp [Quoting.gaps, hmeaning, hblank]
      have hclose := length_closeWord_le word rest
      have hle := ih hrest
      omega
  | case6 q word c cs hmeaning hblank ih => simpa [Quoting.gaps, hmeaning, hblank] using ih h

/-! ## Texts without marks -/

/-- A text that is read without marks is read outside quotes all the way: no character of it could be a mark, and
    it keeps what is not blank. -/
theorem Quoting.unmarked {cs : List Char} (h : Quoting.plain.marks cs = 0) :
    (∀ c ∈ cs, c ≠ '\\' ∧ c ≠ '\'' ∧ c ≠ '"') ∧ Quoting.plain.kept cs = cs.filter fun c => !isBlank c := by
  induction cs with
  | nil => exact ⟨fun c hc => absurd hc List.not_mem_nil, rfl⟩
  | cons c cs ih =>
    by_cases hmark : c = '\\' ∨ c = '\'' ∨ c = '"'
    · have hmeaning : Quoting.plain.meaning c = .mark := by rcases hmark with rfl | rfl | rfl <;> rfl
      simp [marks, hmeaning] at h
    · rw [not_or, not_or] at hmark
      obtain ⟨hslash, hsingle, hdouble⟩ := hmark
      have hmeaning : Quoting.plain.meaning c = .bare := by simp [meaning, hslash, hsingle, hdouble]
      have hnext : Quoting.plain.next c = .plain := by simp [next, hslash, hsingle, hdouble]
      have hrest : Quoting.plain.marks cs = 0 := by simpa [marks, hmeaning, hnext] using h
      obtain ⟨hothers, hkept⟩ := ih hrest
      refine ⟨List.forall_mem_cons.2 ⟨⟨hslash, hsingle, hdouble⟩, hothers⟩, ?_⟩
      cases hblank : isBlank c <;> simp [kept, hmeaning, hnext, hkept, hblank]

/-! ## Joined words -/

theorem length_rejoined (t : String) (ts : List String) :
    (" ".intercalate (t :: ts)).toList.length = (letters (t :: ts)).length + ts.length := by
  induction ts generalizing t with
  | nil => simp [letters]
  | cons t' ts ih =>
    have hrest := ih t'
    rw [String.intercalate_cons_cons, String.toList_append, String.toList_append]
    simp only [letters, List.flatMap_cons, List.length_append, List.length_cons] at hrest ⊢
    have hspace : " ".toList.length = 1 := rfl
    omega

theorem mem_rejoined {ts : List String} {t : String} (ht : t ∈ ts) {c : Char} (hc : c ∈ t.toList) :
    c ∈ (" ".intercalate ts).toList := by
  induction ts with
  | nil => exact absurd ht List.not_mem_nil
  | cons t' ts ih =>
    cases ts with
    | nil =>
      rw [List.mem_singleton] at ht
      rwa [String.intercalate_singleton, ← ht]
    | cons t'' ts =>
      rw [String.intercalate_cons_cons, String.toList_append, String.toList_append]
      rcases List.mem_cons.1 ht with rfl | hrest
      · exact List.mem_append_left _ (List.mem_append_left _ hc)
      · exact List.mem_append_right _ (ih hrest)

/-- Joined words that are read back are read without marks: the account of characters leaves room for none. -/
theorem marks_of_rejoined {ts : List String} (h : tokenize (" ".intercalate ts) = .ok ts) :
    Quoting.plain.marks (" ".intercalate ts).toList = 0 := by
  cases ts with
  | nil => rfl
  | cons t ts =>
    have haccount := Quoting.plain.length_eq_account (" ".intercalate (t :: ts)).toList
    rw [length_rejoined, ← letters_of_tokenize h] at haccount
    have hgaps := length_words_le_gaps h
    rw [List.length_cons] at hgaps
    omega

/-- A word of plain characters is spelled as it is. -/
theorem spells_bare {cs : List Char} (h : ∀ c ∈ cs, Grammar.IsBare c) : Spells cs cs := by
  induction cs with
  | nil => exact Spells.nil
  | cons c cs ih =>
    obtain ⟨hc, hcs⟩ := List.forall_mem_cons.1 h
    exact (Grammar.Piece.bare c hc).spells.append (ih hcs)

/-- Words joined with single spaces are read back as they were exactly if they are plain: no blank, no quote and no
    backslash is in any of them. -/
theorem tokenize_rejoined_iff {ts : List String} (hne : "" ∉ ts) :
    tokenize (" ".intercalate ts) = .ok ts ↔ ∀ t ∈ ts, ∀ c ∈ t.toList, Grammar.IsBare c := by
  constructor
  · intro h t ht c hc
    obtain ⟨hunmarked, hkept⟩ := Quoting.unmarked (marks_of_rejoined h)
    have hletter : c ∈ letters ts := List.mem_flatMap.2 ⟨t, ht, hc⟩
    rw [letters_of_tokenize h, hkept, List.mem_filter, Bool.not_eq_true'] at hletter
    exact ⟨hletter.2, hunmarked c (mem_rejoined ht hc)⟩
  · intro h
    refine tokenize_intercalate ?_ hne
    rw [List.forall₂_same]
    intro t ht
    exact spells_bare (h t ht)

/-- Pipes and redirections are plain. Two quotes that fit together across the space are not. -/
theorem tokenize_rejoined_iff_of_pipes_and_of_fitting_quotes :
    tokenize (" ".intercalate ["sort", "<in", "|", "2>"]) = .ok ["sort", "<in", "|", "2>"] ∧
      tokenize (" ".intercalate ["it's", "o'clock"]) = .ok ["its oclock"] ∧
      ¬ ∀ t ∈ ["it's", "o'clock"], ∀ c ∈ t.toList, Grammar.IsBare c := by
  refine ⟨(tokenize_rejoined_iff (by decide)).2 ?_, by decide, ?_⟩
  · have hbare : ∀ t ∈ ["sort", "<in", "|", "2>"], t.toList.all (fun c => decide (Grammar.IsBare c)) = true := by
      decide
    exact fun t ht c hc => of_decide_eq_true (List.all_eq_true.1 (hbare t ht) c hc)
  · intro h
    have hread := (tokenize_rejoined_iff (by decide)).2 h
    revert hread
    decide

end Conch
