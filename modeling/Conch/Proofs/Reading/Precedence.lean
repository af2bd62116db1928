-- SUMMARY: The rules by which the outcome of reading a line is decided, one rule for each line.
import Conch.Proofs.Reading.Pipelines

/-!
# Which outcome a line has

A line may have several faults at once. `Verdict` says by rules, without going
through the line, which of them decides: an empty segment before a fault of the
last segment, that before a malformed stage, that before a misplaced redirection,
and of faults of one kind the leftmost. `parse` decides every line by these rules.
-/

namespace Conch

/-! ## Rules -/

/-- A line has several segments, and these have certain words. -/
def WordsOf (line : String) (groups : List (List String)) : Prop :=
  2 ≤ (segments line).length ∧
    List.Forall₂ (fun segment words => tokenize segment = .ok words ∧ words ≠ []) (segments line) groups

/-- A line has several segments, and their words are those of certain stages. -/
def StagesOf (line : String) (stages : List Stage) : Prop :=
  ∃ groups, WordsOf line groups ∧ List.Forall₂ (fun words s => parseStage words = .ok s) groups stages

/-- The outcome that the faults of a line, taken together, call for. -/
inductive Verdict (line : String) : Except CommandError Command → Prop where
  | fault {e : LexError} (hsingle : (segments line).length = 1) (hfault : tokenize line = .error e) :
      Verdict line (.error (.lex e))
  | nothing (hsingle : (segments line).length = 1) (hnothing : tokenize line = .ok []) :
      Verdict line (.error (.build .emptyInput))
  | single {words : List String} (hsingle : (segments line).length = 1) (hwords : tokenize line = .ok words)
      (hne : words ≠ []) : Verdict line ((parseStage words).map .stage)
  /-- One segment without words and without fault is enough, whatever the others are. -/
  | emptySegment {segment : String} (hseveral : 2 ≤ (segments line).length) (hmem : segment ∈ segments line)
      (hempty : tokenize segment = .ok []) : Verdict line (.error (.build .emptySegment))
  | lastFault {e : LexError} (hseveral : 2 ≤ (segments line).length)
      (hne : ∀ segment ∈ segments line, tokenize segment ≠ .ok [])
      (hfault : tokenize ((segments line).getLast (segments_ne_nil line)) = .error e) :
      Verdict line (.error (.lex e))
  | malformed {before behind : List (List String)} {words : List String} {e : CommandError}
      (hwords : WordsOf line (before ++ words :: behind))
      (hbefore : ∀ earlier ∈ before, ∃ s, parseStage earlier = .ok s)
      (hfault : parseStage words = .error e) : Verdict line (.error e)
  | inputNotFirst {before behind : List Stage} {s : Stage} (hstages : StagesOf line (before ++ s :: behind))
      (hbefore : PlacedBefore true before) (hplace : before ≠ []) (hinput : s.stdin? ≠ none) :
      Verdict line (.error (.build (.misplaced .input .first)))
  /-- On one stage the input is looked at before the output. -/
  | outputNotLast {before behind : List Stage} {s : Stage} (hstages : StagesOf line (before ++ s :: behind))
      (hbefore : PlacedBefore true before) (hplace : behind ≠ []) (hinput : before = [] ∨ s.stdin? = none)
      (houtput : s.stdout? ≠ none) :
      Verdict line (.error (.build (.misplaced (if s.appends then .append else .output) .last)))
  | pipeline {p : Pipeline} (hstages : StagesOf line p.stages) : Verdict line (.ok (.pipeline p))

/-! ## Segments -/

theorem wordsOf_iff {line : String} {groups : List (List String)} :
    WordsOf line groups ↔
      2 ≤ (segments line).length ∧ (segments line).mapM segmentWords = .ok groups := by
  rw [WordsOf, mapM_eq_ok_iff]
  constructor
  · rintro ⟨hseveral, hwords⟩
    exact ⟨hseveral, hwords.imp fun _ _ h => segmentWords_eq_ok_iff.2 h⟩
  · rintro ⟨hseveral, hwords⟩
    exact ⟨hseveral, hwords.imp fun _ _ h => segmentWords_eq_ok_iff.1 h⟩

/-- With the words of all segments at hand, what is left to do is to assemble them. -/
theorem parse_of_wordsOf {line : String} {groups : List (List String)} (h : WordsOf line groups) :
    parse line = assemble groups := by
  obtain ⟨hseveral, hwords⟩ := wordsOf_iff.1 h
  rw [parse_of_several hseveral, hwords]
  rfl

/-- A segment with others behind it has words. -/
theorem exists_tokenize_of_behind {line segment : String} {before behind : List String}
    (hsplit : segments line = before ++ segment :: behind) (hbehind : behind ≠ []) :
    ∃ words, tokenize segment = .ok words := by
  have hmem : segment ∈ (segments line).dropLast := by
    rw [hsplit, List.dropLast_append_cons, List.dropLast_cons_of_ne_nil hbehind]
    simp
  exact exists_tokenize_of_plain (plain_of_mem_dropLast_segments hmem)

/-- An empty segment decides: the segments on its left can only be empty too. -/
theorem mapM_segmentWords_of_empty {line segment : String} (hmem : segment ∈ segments line)
    (hempty : tokenize segment = .ok []) :
    (segments line).mapM segmentWords = .error (.build .emptySegment) := by
  have hrefused : segmentWords segment = .error (.build .emptySegment) :=
    segmentWords_eq_error_iff.2 (.inl ⟨hempty, rfl⟩)
  cases hall : (segments line).mapM segmentWords with
  | ok groups =>
    obtain ⟨words, -, hwords⟩ := exists_of_forall₂_of_mem (mapM_eq_ok_iff.1 hall).flip hmem
    have hwords : segmentWords segment = .ok words := hwords
    rw [hrefused] at hwords
    cases hwords
  | error e =>
    obtain ⟨before, x, behind, hsplit, hbefore, hx⟩ := mapM_eq_error_iff.1 hall
    rcases segmentWords_eq_error_iff.1 hx with ⟨-, rfl⟩ | ⟨fault, hfault, -⟩
    · rfl
    · exfalso
      -- a fault is only possible on the last segment, but the empty one would have to come later
      rw [hsplit, List.mem_append, List.mem_cons] at hmem
      rcases hmem with hleft | rfl | hright
      · obtain ⟨words, hwords⟩ := hbefore segment hleft
        rw [hrefused] at hwords
        cases hwords
      · rw [hempty] at hfault
        cases hfault
      · obtain ⟨words, hwords⟩ := exists_tokenize_of_behind hsplit (List.ne_nil_of_mem hright)
        rw [hfault] at hwords
        cases hwords

/-- Without an empty segment a fault of the last one decides. -/
theorem mapM_segmentWords_of_lastFault {line : String} {e : LexError}
    (hne : ∀ segment ∈ segments line, tokenize segment ≠ .ok [])
    (hfault : tokenize ((segments line).getLast (segments_ne_nil line)) = .error e) :
    (segments line).mapM segmentWords = .error (.lex e) := by
  have hsplit := (List.dropLast_append_getLast (segments_ne_nil line)).symm
  refine mapM_eq_error_iff.2 ⟨_, _, [], hsplit, ?_, segmentWords_eq_error_iff.2 (.inr ⟨e, hfault, rfl⟩)⟩
  intro segment hmem
  obtain ⟨words, hwords⟩ := exists_tokenize_of_plain (plain_of_mem_dropLast_segments hmem)
  refine ⟨words, segmentWords_eq_ok_iff.2 ⟨hwords, ?_⟩⟩
  rintro rfl
  exact hne segment (List.dropLast_subset _ hmem) hwords

/-- Without an empty segment and without a fault of the last one, all segments have words. -/
theorem exists_wordsOf {line : String} (hseveral : 2 ≤ (segments line).length)
    (hne : ∀ segment ∈ segments line, tokenize segment ≠ .ok [])
    (hlast : ∀ e, tokenize ((segments line).getLast (segments_ne_nil line)) ≠ .error e) :
    ∃ groups, WordsOf line groups := by
  cases hall : (segments line).mapM segmentWords with
  | ok groups => exact ⟨groups, wordsOf_iff.2 ⟨hseveral, hall⟩⟩
  | error e =>
    obtain ⟨before, x, behind, hsplit, -, hx⟩ := mapM_eq_error_iff.1 hall
    have hmem : x ∈ segments line := by simp [hsplit]
    rcases segmentWords_eq_error_iff.1 hx with ⟨hempty, -⟩ | ⟨fault, hfault, -⟩
    · exact absurd hempty (hne x hmem)
    · rw [eq_getLast_of_tokenize_eq_error hmem hfault] at hfault
      exact absurd hfault (hlast fault)

/-! ## Stages -/

theorem misplacedOn_eq_some_iff {isFirst isLast : Bool} {s : Stage} {e : BuildError} :
    misplacedOn isFirst isLast s = some e ↔
      (isFirst = false ∧ s.stdin? ≠ none ∧ e = .misplaced .input .first) ∨
        ((isFirst = true ∨ s.stdin? = none) ∧ isLast = false ∧ s.stdout? ≠ none ∧
          e = .misplaced (if s.appends then .append else .output) .last) := by
  unfold misplacedOn
  cases isFirst <;> cases isLast <;> cases s.stdin? <;> cases s.stdout? <;> simp <;> exact eq_comm

theorem parse_of_misplaced {line : String} {stages : List Stage} {e : BuildError}
    (h : StagesOf line stages) (hmisplaced : misplaced stages = some e) :
    parse line = .error (.build e) := by
  obtain ⟨groups, hwords, hstages⟩ := h
  rw [parse_of_wordsOf hwords]
  exact assemble_of_misplaced hstages hmisplaced

/-- Stages that are read from a line have a verdict: a pipeline, or the leftmost misplaced redirection. -/
theorem StagesOf.verdict {line : String} {stages : List Stage} (h : StagesOf line stages) :
    ∃ r, Verdict line r := by
  cases hmisplaced : misplaced stages with
  | none =>
    obtain ⟨groups, hwords, hstages⟩ := h
    have htwo : 2 ≤ stages.length := by
      rw [← hstages.length_eq, ← hwords.2.length_eq]
      exact hwords.1
    have hplaced := misplaced_eq_none_iff.1 hmisplaced
    exact ⟨_, .pipeline (p := ⟨stages, htwo, hplaced⟩) ⟨groups, hwords, hstages⟩⟩
  | some e =>
    obtain ⟨before, s, behind, rfl, hbefore, hs⟩ := misplacedFrom_eq_some_iff.1 hmisplaced
    rcases misplacedOn_eq_some_iff.1 hs with ⟨hplace, hinput, -⟩ | ⟨hinput, hplace, houtput, -⟩
    · exact ⟨_, .inputNotFirst h hbefore (by simpa using hplace) hinput⟩
    · exact ⟨_, .outputNotLast h hbefore (by simpa using hplace) (by simpa using hinput) houtput⟩

/-! ## Lines -/

/-- A line is read as any verdict on it says. -/
theorem Verdict.parse_eq {line : String} {r : Except CommandError Command} (h : Verdict line r) :
    parse line = r := by
  cases h with
  | fault hsingle hfault => rw [parse_of_single hsingle, hfault]
  | nothing hsingle hnothing => rw [parse_of_single hsingle, hnothing]
  | @single words hsingle hwords hne =>
    rw [parse_of_single hsingle, hwords]
    cases words with
    | nil => exact absurd rfl hne
    | cons word words => rfl
  | emptySegment hseveral hmem hempty =>
    rw [parse_of_several hseveral, mapM_segmentWords_of_empty hmem hempty]
    rfl
  | lastFault hseveral hne hfault =>
    rw [parse_of_several hseveral, mapM_segmentWords_of_lastFault hne hfault]
    rfl
  | malformed hwords hbefore hfault =>
    rw [parse_of_wordsOf hwords]
    exact assemble_of_malformed (mapM_eq_error_iff.2 ⟨_, _, _, rfl, hbefore, hfault⟩)
  | inputNotFirst hstages hbefore hplace hinput =>
    refine parse_of_misplaced hstages (misplacedFrom_eq_some_iff.2 ⟨_, _, _, rfl, hbefore, ?_⟩)
    exact misplacedOn_eq_some_iff.2 (.inl ⟨by simpa using hplace, hinput, rfl⟩)
  | outputNotLast hstages hbefore hplace hinput houtput =>
    refine parse_of_misplaced hstages (misplacedFrom_eq_some_iff.2 ⟨_, _, _, rfl, hbefore, ?_⟩)
    exact misplacedOn_eq_some_iff.2 (.inr ⟨by simpa using hinput, by simpa using hplace, houtput, rfl⟩)
  | pipeline hstages =>
    obtain ⟨groups, hwords, hstages⟩ := hstages
    rw [parse_of_wordsOf hwords]
    exact assemble_of_pipeline hstages

/-- There is a verdict on every line. -/
theorem exists_verdict (line : String) : ∃ r, Verdict line r := by
  have hlength : (segments line).length = 1 ∨ 2 ≤ (segments line).length := by
    have hpos := List.length_pos_iff.2 (segments_ne_nil line)
    omega
  rcases hlength with hsingle | hseveral
  · cases hwords : tokenize line with
    | error e => exact ⟨_, .fault hsingle hwords⟩
    | ok words =>
      cases words with
      | nil => exact ⟨_, .nothing hsingle hwords⟩
      | cons word words => exact ⟨_, .single hsingle hwords (List.cons_ne_nil word words)⟩
  · by_cases hempty : ∃ segment ∈ segments line, tokenize segment = .ok []
    · obtain ⟨segment, hmem, hsegment⟩ := hempty
      exact ⟨_, .emptySegment hseveral hmem hsegment⟩
    · have hne : ∀ segment ∈ segments line, tokenize segment ≠ .ok [] :=
        fun segment hmem hsegment => hempty ⟨segment, hmem, hsegment⟩
      by_cases hlast : ∃ e, tokenize ((segments line).getLast (segments_ne_nil line)) = .error e
      · obtain ⟨e, hfault⟩ := hlast
        exact ⟨_, .lastFault hseveral hne hfault⟩
      · obtain ⟨groups, hwords⟩ := exists_wordsOf hseveral hne fun e he => hlast ⟨e, he⟩
        cases hall : groups.mapM parseStage with
        | ok stages => exact StagesOf.verdict ⟨groups, hwords, mapM_eq_ok_iff.1 hall⟩
        | error e =>
          obtain ⟨before, words, behind, rfl, hbefore, hfault⟩ := mapM_eq_error_iff.1 hall
          exact ⟨_, .malformed hwords hbefore hfault⟩

/-- Reading decides every line by the rules of `Verdict`, and a segment is empty exactly if it has no
    words: the test for blanks that comes before changes no outcome. -/
theorem parse_eq_iff_verdict (line : String) (r : Except CommandError Command) :
    (parse line = r ↔ Verdict line r) ∧
      ∀ segment, segmentWords segment =
        match tokenize segment with
        | .error e => .error (.lex e)
        | .ok [] => .error (.build .emptySegment)
        | .ok words => .ok words := by
  refine ⟨?_, segmentWords_eq⟩
  constructor
  · rintro rfl
    obtain ⟨r, hr⟩ := exists_verdict line
    rw [hr.parse_eq]
    exact hr
  · exact Verdict.parse_eq

-- four faults at once: the empty segment wins over the open quote on its right
example : parse "> | a > | '' | b 'c" = .error (.build .emptySegment) := by decide

-- without it the open quote wins over the malformed stages
example : parse "> | a > | b 'c" = .error (.lex (.unterminated .single)) := by decide

end Conch
