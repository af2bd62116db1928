-- SUMMARY: Reading a line and reading the words of its segments come to the same command or the same fault.
import Conch.Proofs.Reading.Precedence

/-!
# Lines and words

`parse` looks for pipes among the characters of a line, where quotes and escapes
can still be seen; `build` looks for them among finished words. Given the words
of the segments of a line, with a pipe between any two segments, `build` answers
as `parse` does, unless one of the words is itself a pipe. The words exist
exactly if the line as a whole has words.
-/

namespace Conch

/-! ## Words in groups -/

/-- Words without a pipe among them are one group. -/
theorem groupsOf_of_notMem {group : List String} (h : "|" ∉ group) : groupsOf group = [group] := by
  induction group with
  | nil => rfl
  | cons word rest ih =>
    rw [List.mem_cons, not_or] at h
    rw [groupsOf, if_neg (Ne.symm h.1), ih h.2]

/-- A pipe ends the group before it. -/
theorem groupsOf_append_pipe {group : List String} (h : "|" ∉ group) (rest : List String) :
    groupsOf (group ++ "|" :: rest) = group :: groupsOf rest := by
  induction group with
  | nil => simp [groupsOf]
  | cons word group ih =>
    rw [List.mem_cons, not_or] at h
    rw [List.cons_append, groupsOf, if_neg (Ne.symm h.1), ih h.2]

/-- Groups with a pipe between any two of them are found again. -/
theorem groupsOf_intercalate {groups : List (List String)} (hne : groups ≠ [])
    (h : ∀ group ∈ groups, "|" ∉ group) : groupsOf (["|"].intercalate groups) = groups := by
  induction groups with
  | nil => exact absurd rfl hne
  | cons group groups ih =>
    rw [List.forall_mem_cons] at h
    cases groups with
    | nil =>
      rw [List.intercalate_singleton]
      exact groupsOf_of_notMem h.1
    | cons next groups =>
      rw [List.intercalate_cons_cons, List.append_assoc, List.singleton_append, groupsOf_append_pipe h.1,
        ih (List.cons_ne_nil _ _) h.2]

/-! ## Building -/

/-- One group of words is read as a stage, also if it is empty. -/
theorem build_of_single {group : List String} (h : "|" ∉ group) :
    build group = (parseStage group).map .stage := by
  cases group with
  | nil => rfl
  | cons word rest => rw [build, if_neg (by simp), groupsOf_of_notMem h]

/-- Several groups of words are read as a pipeline, unless one is empty. -/
theorem build_of_several {groups : List (List String)} (hlength : 2 ≤ groups.length)
    (h : ∀ group ∈ groups, "|" ∉ group) :
    build (["|"].intercalate groups) =
      if groups.any List.isEmpty then .error (.build .emptySegment) else assemble groups := by
  obtain ⟨group, next, others, rfl⟩ : ∃ group next others, groups = group :: next :: others := by
    match groups, hlength with
    | group :: next :: others, _ => exact ⟨group, next, others, rfl⟩
  have hnonempty : ¬ (["|"].intercalate (group :: next :: others)).isEmpty = true := by
    simp [List.intercalate_cons_cons]
  rw [build, if_neg hnonempty, groupsOf_intercalate (List.cons_ne_nil _ _) h]

/-! ## Words of the segments -/

/-- A line has words exactly if all its segments have. -/
theorem exists_tokenize_iff_segments (line : String) :
    (∃ words, tokenize line = .ok words) ↔ ∃ groups, (segments line).mapM tokenize = .ok groups := by
  constructor
  · rintro ⟨words, hwords⟩
    cases hall : (segments line).mapM tokenize with
    | ok groups => exact ⟨groups, rfl⟩
    | error e =>
      obtain ⟨before, segment, behind, hsplit, -, hfault⟩ := mapM_eq_error_iff.1 hall
      have hmem : segment ∈ segments line := by simp [hsplit]
      have hlast := hfault
      rw [eq_getLast_of_tokenize_eq_error hmem hfault, ← tokenize_eq_error_iff_getLast, hwords] at hlast
      cases hlast
  · rintro ⟨groups, hgroups⟩
    cases hwords : tokenize line with
    | ok words => exact ⟨words, rfl⟩
    | error e =>
      have hlast := tokenize_eq_error_iff_getLast.1 hwords
      obtain ⟨words, -, hok⟩ :=
        exists_of_forall₂_of_mem (mapM_eq_ok_iff.1 hgroups).flip (List.getLast_mem (segments_ne_nil line))
      have hok : tokenize ((segments line).getLast (segments_ne_nil line)) = .ok words := hok
      rw [hlast] at hok
      cases hok

/-- A line with one segment has the words of that segment. -/
theorem tokenize_of_single {line : String} {groups : List (List String)}
    (hsingle : (segments line).length = 1) (hgroups : (segments line).mapM tokenize = .ok groups) :
    ∃ words, groups = [words] ∧ tokenize line = .ok words := by
  rw [segments_of_single hsingle, mapM_eq_ok_iff] at hgroups
  cases hgroups with
  | cons hwords hrest =>
    cases hrest
    exact ⟨_, rfl, hwords⟩

/-- What a line with several segments comes to, once their words are at hand. -/
theorem parse_of_groups {line : String} {groups : List (List String)} (hseveral : 2 ≤ (segments line).length)
    (hgroups : (segments line).mapM tokenize = .ok groups) :
    parse line = if groups.any List.isEmpty then .error (.build .emptySegment) else assemble groups := by
  have hpairs := mapM_eq_ok_iff.1 hgroups
  split
  · rename_i hempty
    obtain ⟨group, hmem, hnil⟩ := List.any_eq_true.1 hempty
    obtain rfl := List.isEmpty_iff.1 hnil
    obtain ⟨segment, hsegment, hwords⟩ := exists_of_forall₂_of_mem hpairs hmem
    rw [parse_of_several hseveral, mapM_segmentWords_of_empty hsegment hwords]
    rfl
  · rename_i hfull
    refine parse_of_wordsOf ⟨hseveral, ?_⟩
    have hne : ∀ group ∈ groups, group ≠ [] := by
      rintro group hmem rfl
      exact hfull (List.any_eq_true.2 ⟨[], hmem, rfl⟩)
    refine List.forall₂_iff_get.2 ⟨hpairs.length_eq, ?_⟩
    intro i hi hi'
    exact ⟨(List.forall₂_iff_get.1 hpairs).2 i hi hi', hne _ (List.get_mem _ _)⟩

/-- Reading a line and reading the words of its segments, with a pipe between any two segments, come
    to the same, if no word is itself a pipe. The segments have words exactly if the line has. -/
theorem parse_eq_build_segments (line : String) :
    ((∃ words, tokenize line = .ok words) ↔ ∃ groups, (segments line).mapM tokenize = .ok groups) ∧
      ∀ groups, (segments line).mapM tokenize = .ok groups → (∀ group ∈ groups, "|" ∉ group) →
        parse line = build (["|"].intercalate groups) := by
  refine ⟨exists_tokenize_iff_segments line, ?_⟩
  intro groups hgroups hpipes
  have hlength : (segments line).length = 1 ∨ 2 ≤ (segments line).length := by
    have hpos := List.length_pos_iff.2 (segments_ne_nil line)
    omega
  rcases hlength with hsingle | hseveral
  · obtain ⟨words, rfl, hwords⟩ := tokenize_of_single hsingle hgroups
    rw [List.intercalate_singleton, build_of_single (hpipes words List.mem_cons_self), parse_of_single hsingle,
      hwords]
    cases words with
    | nil => rfl
    | cons word words => rfl
  · have hmany : 2 ≤ groups.length := by
      rw [← (mapM_eq_ok_iff.1 hgroups).length_eq]
      exact hseveral
    rw [parse_of_groups hseveral hgroups, build_of_several hmany hpipes]

/-- Pipes inside words, quoted or escaped, and a redirection on each stage. -/
theorem parse_eq_build_segments_with_pipes_in_words :
    (segments "a 'x|y' < in | b\\| > out").mapM tokenize = .ok [["a", "x|y", "<", "in"], ["b|", ">", "out"]] ∧
      parse "a 'x|y' < in | b\\| > out" = build ["a", "x|y", "<", "in", "|", "b|", ">", "out"] := by
  have hgroups : (segments "a 'x|y' < in | b\\| > out").mapM tokenize =
      .ok [["a", "x|y", "<", "in"], ["b|", ">", "out"]] := by decide
  exact ⟨hgroups, (parse_eq_build_segments _).2 _ hgroups (by decide)⟩

-- a word that is a pipe is what makes the difference
example : parse "a '|' b" ≠ build ["a", "|", "b"] := by decide

end Conch
