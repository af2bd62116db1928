-- SUMMARY: What trimming a line does to its reading: nothing, unless it takes away the blank that a backslash escapes.
import Mathlib.Data.List.DropRight
import Conch.Proofs.Reading.Grammar
import Conch.Proofs.Reading.Precedence
import Conch.Proofs.Reading.StageGrammar

/-!
# Trimmed lines

A line is trimmed before anything is known of its quotes. Blanks in front of it are
outside quotes and part nothing. What blanks behind it mean depends on where the
scan stands when it reaches them: outside quotes they part nothing, and inside
quotes the quotation is open with them and without. Only behind an open escape does
the first of them become part of a word, and the line without it has a fault.

A line is read through the words of its segments, so it is enough to follow these.
-/

namespace Conch

/-- The last character of a line is a blank, so that trimming takes something from its end. -/
def EndsInBlank (line : String) : Prop :=
  ∃ c ∈ line.toList.getLast?, isBlank c = true

/-! ## What trimming takes away -/

/-- A line is its trimmed text between blanks, and there are some behind it only if the line ends in one. -/
theorem exists_gaps_of_trim (line : String) :
    ∃ lead trail, Grammar.IsGap lead ∧ Grammar.IsGap trail ∧ line.toList = lead ++ (trim line).toList ++ trail ∧
      (trail ≠ [] → EndsInBlank line) := by
  refine ⟨line.toList.takeWhile isBlank, (line.toList.dropWhile isBlank).rtakeWhile isBlank, ?_, ?_, ?_, ?_⟩
  · exact fun c hc => List.mem_takeWhile_imp hc
  · exact fun c hc => List.mem_rtakeWhile_imp hc
  · have hbehind : trimBlanks line.toList ++ (line.toList.dropWhile isBlank).rtakeWhile isBlank =
        line.toList.dropWhile isBlank := List.rdropWhile_append_rtakeWhile
    rw [trim, String.toList_ofList, List.append_assoc, hbehind, List.takeWhile_append_dropWhile]
  · intro hne
    have hsuffix : (line.toList.dropWhile isBlank).rtakeWhile isBlank <:+ line.toList :=
      (List.rtakeWhile_suffix _ _).trans (List.dropWhile_suffix _)
    refine ⟨_, ?_, List.mem_rtakeWhile_imp (List.getLast_mem hne)⟩
    rw [hsuffix.getLast hne]
    exact List.getLast?_eq_some_getLast _

/-- A text that ends in an open escape does not end in a blank. -/
theorem Grammar.EndsInEscape.getLast?_eq {cs : List Char} (h : EndsInEscape cs) : cs.getLast? = some '\\' := by
  cases h with
  | outside h => exact List.getLast?_concat
  | inDouble h items => exact List.getLast?_concat

/-! ## Blanks and quotes -/

/-- Unless an escape is open, a blank leaves the scan where it is. -/
theorem Quoting.next_of_blank {q : Quoting} {c : Char} (hc : isBlank c = true)
    (hq : q.ending ≠ some .trailingEscape) : q.next c = q := by
  cases q with
  | plain => exact (Quoting.next_plain_of_blank hc).2
  | escape => exact absurd rfl hq
  | single =>
    refine if_neg ?_
    rintro rfl
    exact absurd hc (by decide)
  | double =>
    have hslash : c ≠ '\\' := by rintro rfl; exact absurd hc (by decide)
    have hquote : c ≠ '"' := by rintro rfl; exact absurd hc (by decide)
    exact (if_neg hslash).trans (if_neg hquote)
  | doubleEscape => exact absurd rfl hq

theorem Quoting.after_gap {q : Quoting} {gap : List Char} (h : Grammar.IsGap gap)
    (hq : q.ending ≠ some .trailingEscape) : q.after gap = q := by
  induction gap with
  | nil => rfl
  | cons c gap ih =>
    obtain ⟨hc, hgap⟩ := List.forall_mem_cons.1 h
    rw [after_cons, next_of_blank hc hq]
    exact ih hgap

/-- No escape is open behind a blank. -/
theorem Quoting.ending_next_of_blank (q : Quoting) {c : Char} (hc : isBlank c = true) :
    (q.next c).ending ≠ some .trailingEscape := by
  by_cases hq : q.ending = some .trailingEscape
  · cases q with
    | plain => cases hq
    | escape => exact Option.some_ne_none _ ∘ Eq.symm
    | single => cases hq
    | double => cases hq
    | doubleEscape =>
      intro hdouble
      cases hdouble
  · rwa [next_of_blank hc hq]

theorem Quoting.ending_after_gap (q : Quoting) {gap : List Char} (h : Grammar.IsGap gap) (hne : gap ≠ []) :
    (q.after gap).ending ≠ some .trailingEscape := by
  obtain ⟨c, rest, rfl⟩ := List.exists_cons_of_ne_nil hne
  obtain ⟨hc, hrest⟩ := List.forall_mem_cons.1 h
  have hclosed := q.ending_next_of_blank hc
  rwa [after_cons, after_gap hrest hclosed]

/-! ## Blanks and words -/

theorem wordsFrom_of_gap {q : Quoting} {gap : List Char} (h : Grammar.IsGap gap)
    (hq : q.ending ≠ some .trailingEscape) (word : List Char) : wordsFrom q word gap = wordsFrom q word [] := by
  cases hend : q.ending with
  | some e =>
    have hgap : wordsFrom q word gap = .error e := by rw [wordsFrom_eq_error_iff, Quoting.after_gap h hq, hend]
    have hnil : wordsFrom q word [] = .error e := wordsFrom_eq_error_iff.2 hend
    rw [hgap, hnil]
  | none =>
    obtain rfl : q = .plain := by cases q <;> first | rfl | cases hend
    cases gap with
    | nil => rfl
    | cons c rest =>
      obtain ⟨hc, hrest⟩ := List.forall_mem_cons.1 h
      obtain ⟨hbare, hnext⟩ := Quoting.next_plain_of_blank hc
      simp only [wordsFrom, hbare, hnext, hc, if_true, wordsFrom_blanks hrest]
      rfl

/-- Unless an escape is open, blanks behind a text change neither its words nor its fault. -/
theorem wordsFrom_append_gap {q : Quoting} {word cs gap : List Char} (h : Grammar.IsGap gap)
    (hq : (q.after cs).ending ≠ some .trailingEscape) : wordsFrom q word (cs ++ gap) = wordsFrom q word cs := by
  induction cs generalizing q word with
  | nil => exact wordsFrom_of_gap h hq word
  | cons c cs ih =>
    rw [Quoting.after_cons] at hq
    simp only [List.cons_append, wordsFrom, ih hq]

/-! ## Blanks and segments -/

/-- The words of the segments of two lines are the same, or they have the same faults. -/
def ReadAlike (segs others : List String) : Prop :=
  segs.map tokenize = others.map tokenize

/-- What stands at the beginning of the current segment matters only through the words that it leads to. -/
theorem ReadAlike.segmentsFrom {q : Quoting} {segment other : List Char}
    (h : ∀ rest, wordsFrom .plain [] (segment.reverse ++ rest) = wordsFrom .plain [] (other.reverse ++ rest))
    (cs : List Char) : ReadAlike (segmentsFrom q segment cs) (segmentsFrom q other cs) := by
  have hnow : tokenize (String.ofList segment.reverse) = tokenize (String.ofList other.reverse) := by
    simpa [tokenize] using h []
  induction cs generalizing q segment other with
  | nil => exact congrArg (fun words => [words]) hnow
  | cons c cs ih =>
    rw [Conch.segmentsFrom, Conch.segmentsFrom]
    split
    · exact congrArg₂ List.cons hnow rfl
    · refine ih ?_ ?_
      · intro rest
        simpa using h (c :: rest)
      · simpa [tokenize] using h [c]

/-- Blanks in front of a line do not matter. -/
theorem segments_of_lead {lead : List Char} (h : Grammar.IsGap lead) (cs : List Char) :
    ReadAlike (segmentsFrom .plain [] (lead ++ cs)) (segmentsFrom .plain [] cs) := by
  have hone : ∀ segment, segmentsFrom .plain segment (lead ++ cs) = segmentsFrom .plain (lead.reverse ++ segment) cs := by
    induction lead with
    | nil => exact fun segment => rfl
    | cons c lead ih =>
      obtain ⟨hc, hlead⟩ := List.forall_mem_cons.1 h
      have hpipe : c ≠ pipeChar := by rintro rfl; exact absurd hc (by decide)
      intro segment
      rw [List.cons_append, segmentsFrom, if_neg (by simp [hpipe]), (Quoting.next_plain_of_blank hc).2, ih hlead]
      simp
  rw [hone]
  refine ReadAlike.segmentsFrom ?_ cs
  intro rest
  rw [List.append_nil, List.reverse_reverse]
  exact Grammar.wordsFrom_gap h rest

/-- Blanks have no pipes, so they all belong to one segment. -/
theorem segmentsFrom_of_gap {gap : List Char} (h : Grammar.IsGap gap) (q : Quoting) (segment : List Char) :
    segmentsFrom q segment gap = [String.ofList (segment.reverse ++ gap)] := by
  induction gap generalizing q segment with
  | nil => rw [List.append_nil, segmentsFrom]
  | cons c gap ih =>
    obtain ⟨hc, hgap⟩ := List.forall_mem_cons.1 h
    have hpipe : c ≠ pipeChar := by rintro rfl; exact absurd hc (by decide)
    rw [segmentsFrom, if_neg (by simp [hpipe]), ih hgap]
    simp

/-- Blanks behind a line do not matter unless an escape is open. The invariant is that the part read of the current
    segment leads from outside quotes to the place where the scan stands. -/
theorem segments_of_trail {q : Quoting} {segment cs trail : List Char} (h : Grammar.IsGap trail)
    (hq : Quoting.plain.after segment.reverse = q) (hend : (q.after cs).ending ≠ some .trailingEscape) :
    ReadAlike (segmentsFrom q segment (cs ++ trail)) (segmentsFrom q segment cs) := by
  fun_induction segmentsFrom q segment cs with
  | case1 q segment =>
    subst hq
    rw [List.nil_append, segmentsFrom_of_gap h]
    refine congrArg (fun words => [words]) ?_
    rw [tokenize, tokenize, String.toList_ofList, String.toList_ofList]
    exact wordsFrom_append_gap h hend
  | case2 q segment c cs hpart ih =>
    rw [List.cons_append, segmentsFrom, if_pos hpart]
    rw [Bool.and_eq_true, decide_eq_true_iff, decide_eq_true_iff] at hpart
    obtain ⟨hbare, rfl⟩ := hpart
    obtain rfl := Quoting.eq_plain_of_bare hbare
    exact congrArg (List.cons _) (ih rfl hend)
  | case3 q segment c cs hpart ih =>
    rw [List.cons_append, segmentsFrom, if_neg hpart]
    refine ih ?_ hend
    rw [List.reverse_cons, Quoting.after_append, hq]
    rfl

/-! ## Lines -/

theorem mapM_segmentWords_congr {segs others : List String} (h : ReadAlike segs others) :
    segs.mapM segmentWords = others.mapM segmentWords := by
  induction segs generalizing others with
  | nil =>
    obtain rfl := List.map_eq_nil_iff.1 h.symm
    rfl
  | cons seg segs ih =>
    obtain ⟨other, rest, rfl, hhere, hrest⟩ := List.map_eq_cons_iff.1 h.symm
    rw [List.mapM_cons, List.mapM_cons, segmentWords_eq, segmentWords_eq other, hhere, ih hrest.symm]

/-- A line is read through the words of its segments. -/
theorem parse_congr {line other : String} (h : ReadAlike (segments line) (segments other)) :
    parse line = parse other := by
  have hlength : (segments line).length = (segments other).length := by
    simpa [ReadAlike] using congrArg List.length h
  by_cases hseveral : 2 ≤ (segments line).length
  · rw [parse_of_several hseveral, parse_of_several (hlength ▸ hseveral), mapM_segmentWords_congr h]
  · have hpos := List.length_pos_iff.2 (segments_ne_nil line)
    have hsingle : (segments line).length = 1 := by omega
    have hsingle' : (segments other).length = 1 := by omega
    rw [ReadAlike, segments_of_single hsingle, segments_of_single hsingle'] at h
    rw [parse_of_single hsingle, parse_of_single hsingle', List.head_eq_of_cons_eq h]

/-- A line that is refused for a fault of its words has that fault. -/
theorem tokenize_of_parse_eq_lex {line : String} {e : LexError} (h : parse line = .error (.lex e)) :
    tokenize line = .error e := by
  have hstage : ∀ words, parseStage words ≠ .error (.lex e) := by
    intro words hwords
    cases parseStage_eq_error_iff.1 hwords
  obtain ⟨r, hr⟩ := exists_verdict line
  have hverdict : r = .error (.lex e) := by rw [← hr.parse_eq, h]
  cases hr with
  | fault hsingle hfault =>
    cases hverdict
    exact hfault
  | nothing hsingle hnothing => cases hverdict
  | @single words hsingle hwords hne =>
    cases hread : parseStage words with
    | ok s => rw [hread] at hverdict; cases hverdict
    | error e' =>
      rw [hread] at hverdict
      cases hverdict
      exact absurd hread (hstage words)
  | emptySegment hseveral hmem hempty => cases hverdict
  | lastFault hseveral hne hfault =>
    cases hverdict
    exact tokenize_eq_error_iff_getLast.2 hfault
  | malformed hwords hbefore hfault =>
    cases hverdict
    exact absurd hfault (hstage _)
  | inputNotFirst hstages hbefore hplace hinput => cases hverdict
  | outputNotLast hstages hbefore hplace hinput houtput => cases hverdict
  | pipeline hstages => cases hverdict

/-- A line with a fault of its words is refused for it, or for an empty segment in front of the faulty one. -/
theorem parse_of_tokenize_eq_error {line : String} {e : LexError} (h : tokenize line = .error e) :
    ((∃ s ∈ (segments line).dropLast, tokenize s = .ok []) ∧ parse line = .error (.build .emptySegment)) ∨
      (¬ ∃ s ∈ (segments line).dropLast, tokenize s = .ok []) ∧ parse line = .error (.lex e) := by
  have hlast := tokenize_eq_error_iff_getLast.1 h
  by_cases hempty : ∃ s ∈ (segments line).dropLast, tokenize s = .ok []
  · obtain ⟨s, hs, hnothing⟩ := hempty
    have hseveral : 2 ≤ (segments line).length := by
      have hpos := List.length_pos_of_mem hs
      rw [List.length_dropLast] at hpos
      omega
    exact .inl ⟨⟨s, hs, hnothing⟩, (Verdict.emptySegment hseveral (List.dropLast_subset _ hs) hnothing).parse_eq⟩
  · refine .inr ⟨hempty, ?_⟩
    by_cases hseveral : 2 ≤ (segments line).length
    · refine (Verdict.lastFault hseveral ?_ hlast).parse_eq
      intro s hs hnothing
      rw [← List.dropLast_append_getLast (segments_ne_nil line), List.mem_append, List.mem_singleton] at hs
      rcases hs with hinit | rfl
      · exact hempty ⟨s, hinit, hnothing⟩
      · rw [hlast] at hnothing
        cases hnothing
    · have hpos := List.length_pos_iff.2 (segments_ne_nil line)
      exact (Verdict.fault (by omega) h).parse_eq

/-- Trimming a line changes nothing that is read from it, unless the trimmed text ends in an open escape and there
    was a blank behind it. Then the trimmed line is refused for the escape, or for an empty segment if there is one
    before the last, and the line itself is not refused for an escape. -/
theorem parseTrimmed_eq_unless_blank_was_escaped (line : String) :
    (¬ Grammar.EndsInEscape (trim line).toList ∨ ¬ EndsInBlank line → parseTrimmed line = parse line) ∧
    (Grammar.EndsInEscape (trim line).toList ∧ EndsInBlank line →
      (parseTrimmed line = .error (.lex .trailingEscape) ∨ parseTrimmed line = .error (.build .emptySegment)) ∧
      (parseTrimmed line = .error (.build .emptySegment) ↔
        ∃ s ∈ (segments (trim line)).dropLast, tokenize s = .ok []) ∧
      parse line ≠ .error (.lex .trailingEscape)) := by
  obtain ⟨lead, trail, hlead, htrail, htext, hblank⟩ := exists_gaps_of_trim line
  have hafter : Quoting.plain.after line.toList = (Quoting.plain.after (trim line).toList).after trail := by
    have hplain : Quoting.plain.ending ≠ some .trailingEscape := Option.some_ne_none _ ∘ Eq.symm
    rw [htext, Quoting.after_append, Quoting.after_append, Quoting.after_gap hlead hplain]
  rw [Grammar.endsInEscape_iff]
  constructor
  · intro h
    refine (parse_congr ?_).symm
    have hfront : ReadAlike (segments line) (segmentsFrom .plain [] ((trim line).toList ++ trail)) := by
      rw [segments, htext, List.append_assoc]
      exact segments_of_lead hlead _
    refine hfront.trans ?_
    by_cases hnone : trail = []
    · rw [hnone, List.append_nil]
      rfl
    · have hopen := h.resolve_right (not_not_intro (hblank hnone))
      exact segments_of_trail htrail rfl hopen
  · rintro ⟨hescape, c, hc, hcblank⟩
    have hne : trail ≠ [] := by
      rintro rfl
      have hlast := (Grammar.endsInEscape_iff.2 hescape).getLast?_eq
      rw [htext, List.append_nil, List.getLast?_append, hlast] at hc
      cases hc
      exact absurd hcblank (by decide)
    have hclosed : parse line ≠ .error (.lex .trailingEscape) := by
      intro hparse
      have hopen := tokenize_eq_error_iff.1 (tokenize_of_parse_eq_lex hparse)
      rw [hafter] at hopen
      exact Quoting.ending_after_gap _ htrail hne hopen
    rcases parse_of_tokenize_eq_error (tokenize_eq_error_iff.2 hescape) with ⟨hempty, hparse⟩ | ⟨hempty, hparse⟩
    · exact ⟨.inr hparse, iff_of_true hparse hempty, hclosed⟩
    · refine ⟨.inl hparse, iff_of_false ?_ hempty, hclosed⟩
      intro hrefused
      rw [parseTrimmed, hparse] at hrefused
      cases hrefused

/-- A blank that is escaped at the end of a line, behind an empty segment, and blanks that a quote keeps. -/
theorem parseTrimmed_eq_unless_blank_was_escaped_at_three_ends :
    (parseTrimmed "echo a\\ " = .error (.lex .trailingEscape) ∧ (parse "echo a\\ ").isOk = true) ∧
      (parseTrimmed "'' | b\\\t " = .error (.build .emptySegment) ∧
        parse "'' | b\\\t " ≠ .error (.lex .trailingEscape)) ∧
      parseTrimmed " echo 'a\\  " = parse " echo 'a\\  " := by
  have hafterEmpty : Grammar.EndsInEscape (trim "'' | b\\\t ").toList ∧ EndsInBlank "'' | b\\\t " :=
    ⟨Grammar.endsInEscape_iff.2 (by decide), ' ', by decide, by decide⟩
  have hquoted : ¬ Grammar.EndsInEscape (trim " echo 'a\\  ").toList := by
    rw [Grammar.endsInEscape_iff]
    decide
  obtain ⟨-, hempty, hparse⟩ := (parseTrimmed_eq_unless_blank_was_escaped "'' | b\\\t ").2 hafterEmpty
  refine ⟨⟨by decide, by decide⟩, ⟨hempty.2 ⟨"'' ", by decide, by decide⟩, hparse⟩, ?_⟩
  exact (parseTrimmed_eq_unless_blank_was_escaped " echo 'a\\  ").1 (.inl hquoted)

end Conch
