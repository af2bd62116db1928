-- SUMMARY: Parting a line at its pipes: the only lossless way, and one that agrees with the words about quotes.
import Conch.Proofs.Reading.Building
import Conch.Proofs.Reading.Joining

/-!
# Splitting and words

The segments of a line are told by what they are, without the scan that finds
them: joined with pipes they give the line, none of them can be split further, and
all but the last have words. There is one such list of segments for every line,
also for one with an open quotation or escape, where the last segment has the rest
of the line with all its pipes.

Splitting and finding words are two scans, and both keep track of quotes. That they
agree is said through what comes out of them: the fault of a line is that of its
last segment, and the characters that reach the words of a line are those that
reach the words of its segments, with the pipes in between.
-/

namespace Conch

/-! ## Segments are not split again -/

/-- The invariant of the scan is that what was read of the current segment has no active pipe: it is scanned
    again as one segment, up to the same place. -/
theorem segments_of_mem_segmentsFrom {q : Quoting} {segment cs : List Char}
    (hread : ∀ rest, segmentsFrom .plain [] (segment.reverse ++ rest) = segmentsFrom q segment rest) :
    ∀ s ∈ segmentsFrom q segment cs, segments s = [s] := by
  have hwhole : segments (String.ofList segment.reverse) = [String.ofList segment.reverse] := by
    have hend := hread []
    rw [List.append_nil] at hend
    rw [segments, String.toList_ofList, hend, segmentsFrom]
  fun_induction segmentsFrom q segment cs with
  | case1 q segment => simpa using hwhole
  | case2 q segment c cs hpart ih =>
    simp only [Bool.and_eq_true, decide_eq_true_eq] at hpart
    obtain ⟨hbare, rfl⟩ := hpart
    obtain rfl := Quoting.eq_plain_of_bare hbare
    rw [List.forall_mem_cons]
    refine ⟨hwhole, ih ?_ rfl⟩
    intro rest
    rfl
  | case3 q segment c cs hpart ih =>
    have hlonger : ∀ rest,
        segmentsFrom .plain [] ((c :: segment).reverse ++ rest) = segmentsFrom (q.next c) (c :: segment) rest := by
      intro rest
      rw [List.reverse_cons, List.append_assoc, List.singleton_append, hread, segmentsFrom, if_neg hpart]
    apply ih hlonger
    have hend := hlonger []
    rw [List.append_nil] at hend
    rw [segments, String.toList_ofList, hend, segmentsFrom]

/-- A segment of a line has no active pipe of its own. -/
theorem segments_of_mem_segments {line s : String} (h : s ∈ segments line) : segments s = [s] :=
  segments_of_mem_segmentsFrom (fun _ => rfl) s h

/-- Texts that cannot be split are the segments of the line that pipes join them to, if all but the last
    have words. -/
theorem segments_of_joined {segs : List String} (hne : segs ≠ []) (hwhole : ∀ s ∈ segs, segments s = [s])
    (hwords : ∀ s ∈ segs.dropLast, ∃ words, tokenize s = .ok words) : segments ("|".intercalate segs) = segs := by
  induction segs with
  | nil => exact absurd rfl hne
  | cons s segs ih =>
    rw [List.forall_mem_cons] at hwhole
    cases segs with
    | nil =>
      rw [String.intercalate_singleton]
      exact hwhole.1
    | cons s' segs =>
      rw [List.dropLast_cons_cons, List.forall_mem_cons] at hwords
      obtain ⟨⟨words, hs⟩, hothers⟩ := hwords
      have hrest := ih (List.cons_ne_nil s' segs) hwhole.2 hothers
      rw [String.intercalate_cons_cons, segments_piped hs, hwhole.1, hrest, List.singleton_append]

/-- The segments of a line are the only texts that pipes join to the line, that cannot be split again, and of
    which all but the last have words. -/
theorem segments_eq_iff_lossless (line : String) (segs : List String) :
    segments line = segs ↔
      segs ≠ [] ∧ "|".intercalate segs = line ∧ (∀ s ∈ segs, segments s = [s]) ∧
        ∀ s ∈ segs.dropLast, ∃ words, tokenize s = .ok words := by
  constructor
  · intro h
    subst h
    refine ⟨segments_ne_nil line, intercalate_segments line, ?_, ?_⟩
    · intro s hs
      exact segments_of_mem_segments hs
    · intro s hs
      exact exists_tokenize_of_plain (plain_of_mem_dropLast_segments hs)
  · rintro ⟨hne, rfl, hwhole, hwords⟩
    exact segments_of_joined hne hwhole hwords

/-- An escaped pipe, a quoted one, and an open quotation that keeps the last two pipes together. -/
theorem segments_eq_iff_lossless_with_open_quote :
    segments "a\\|b|'c|d' e|\"f|g|" = ["a\\|b", "'c|d' e", "\"f|g|"] ∧
      "|".intercalate ["a\\|b", "'c|d' e", "\"f|g|"] = "a\\|b|'c|d' e|\"f|g|" ∧
      segments "\"f|g|" = ["\"f|g|"] ∧ tokenize "'c|d' e" = .ok ["c|d", "e"] := by
  have hsegments : segments "a\\|b|'c|d' e|\"f|g|" = ["a\\|b", "'c|d' e", "\"f|g|"] := by decide
  obtain ⟨-, hjoined, hwhole, -⟩ := (segments_eq_iff_lossless _ _).1 hsegments
  exact ⟨hsegments, hjoined, hwhole _ (by simp), by decide⟩

/-! ## Characters that reach words -/

/-- The characters of a text that reach its words, when it is read from a given place on: marks and the blanks
    between words do not. -/
def Quoting.kept : Quoting → List Char → List Char
  | _, [] => []
  | q, c :: cs =>
    match q.meaning c with
    | .literal => c :: kept (q.next c) cs
    | .mark => kept (q.next c) cs
    | .bare => if isBlank c then kept (q.next c) cs else c :: kept (q.next c) cs

theorem Quoting.kept_append (q : Quoting) (cs ds : List Char) :
    q.kept (cs ++ ds) = q.kept cs ++ (q.after cs).kept ds := by
  induction cs generalizing q with
  | nil => rfl
  | cons c cs ih =>
    rw [List.cons_append, Quoting.after_cons]
    simp only [kept, ih]
    cases q.meaning c with
    | literal => rfl
    | mark => rfl
    | bare => by_cases hblank : isBlank c = true <;> simp [hblank]

/-- The characters of some words, in order. -/
def letters (words : List String) : List Char :=
  words.flatMap String.toList

theorem letters_closeWord (word : List Char) (rest : List String) :
    letters (closeWord word rest) = word.reverse ++ letters rest := by
  cases word with
  | nil => rfl
  | cons c cs => simp [closeWord, letters]

/-- The words of a text have the characters that reach them, none lost and none moved. -/
theorem letters_of_wordsFrom {q : Quoting} {word cs : List Char} {words : List String}
    (h : wordsFrom q word cs = .ok words) : letters words = word.reverse ++ q.kept cs := by
  fun_induction wordsFrom q word cs generalizing words with
  | case1 q word e hend => cases h
  | case2 q word hend =>
    cases h
    have hclosed := letters_closeWord word []
    simpa [letters, Quoting.kept] using hclosed
  | case3 q word c cs hmeaning ih => simp [ih h, Quoting.kept, hmeaning]
  | case4 q word c cs hmeaning ih => simp [ih h, Quoting.kept, hmeaning]
  | case5 q word c cs hmeaning hblank ih =>
    cases hrest : wordsFrom (q.next c) [] cs with
    | error e =>
      rw [hrest] at h
      cases h
    | ok rest =>
      rw [hrest] at h
      cases h
      simp [letters_closeWord, ih hrest, Quoting.kept, hmeaning, hblank]
  | case6 q word c cs hmeaning hblank ih => simp [ih h, Quoting.kept, hmeaning, hblank]

theorem letters_of_tokenize {line : String} {words : List String} (h : tokenize line = .ok words) :
    letters words = Quoting.plain.kept line.toList :=
  letters_of_wordsFrom h

/-! ## Joined segments -/

/-- A blank behind a text that has words begins new words. -/
theorem wordsFrom_append_space {q : Quoting} {word cs : List Char} {words : List String}
    (h : wordsFrom q word cs = .ok words) (rest : List Char) :
    wordsFrom q word (cs ++ ' ' :: rest) = (wordsFrom .plain [] rest).map (words ++ ·) := by
  fun_induction wordsFrom q word cs generalizing words with
  | case1 q word e hend => cases h
  | case2 q word hend =>
    cases h
    obtain rfl : q = .plain := by cases q <;> simp_all [Quoting.ending]
    have hclose : ∀ rest, closeWord word rest = closeWord word [] ++ rest := by
      intro rest
      cases word <;> rfl
    rw [List.nil_append, wordsFrom_space]
    exact congrArg (Except.map · _) (funext hclose)
  | case3 q word c cs hmeaning ih => simp [wordsFrom, hmeaning, ih h]
  | case4 q word c cs hmeaning ih => simp [wordsFrom, hmeaning, ih h]
  | case5 q word c cs hmeaning hblank ih =>
    cases hrest : wordsFrom (q.next c) [] cs with
    | error e =>
      rw [hrest] at h
      cases h
    | ok others =>
      rw [hrest] at h
      cases h
      have hclose : ∀ rest, closeWord word (others ++ rest) = closeWord word others ++ rest := by
        intro rest
        cases word <;> rfl
      rw [List.cons_append, wordsFrom, hmeaning]
      simp only [hblank, if_true, ih hrest]
      cases wordsFrom .plain [] rest with
      | error e => rfl
      | ok more => exact congrArg Except.ok (hclose more)
  | case6 q word c cs hmeaning hblank ih => simp [wordsFrom, hmeaning, hblank, ih h]

section Joined

variable {segs : List String} {groups : List (List String)}

/-- Segments with spaced pipes between them have their own words and the pipes. -/
theorem tokenize_spaced_pipes (h : List.Forall₂ (fun s group => tokenize s = .ok group) segs groups) :
    tokenize (" | ".intercalate segs) = .ok (["|"].intercalate groups) := by
  induction h with
  | nil => rfl
  | @cons s group segs groups hs hrest ih =>
    cases hrest with
    | nil => simpa using hs
    | @cons s' group' segs groups hs' hrest =>
      have htext : (" | ".intercalate (s :: s' :: segs)).toList =
          s.toList ++ ' ' :: '|' :: ' ' :: (" | ".intercalate (s' :: segs)).toList := by
        rw [String.intercalate_cons_cons, String.toList_append, String.toList_append, List.append_assoc]
        rfl
      have hpipe : ∀ rest, wordsFrom .plain [] ('|' :: ' ' :: rest) = (wordsFrom .plain [] rest).map ("|" :: ·) := by
        intro rest
        rfl
      rw [tokenize] at ih hs
      rw [tokenize, htext, wordsFrom_append_space hs, hpipe, ih]
      simp [Except.map, List.intercalate_cons_cons]

/-- With pipes between them, the characters of the words of segments are those that reach the words of the line. -/
theorem kept_joined (h : List.Forall₂ (fun s group => tokenize s = .ok group) segs groups) :
    Quoting.plain.kept ("|".intercalate segs).toList = ['|'].intercalate (groups.map letters) := by
  induction h with
  | nil => rfl
  | @cons s group segs groups hs hrest ih =>
    cases hrest with
    | nil => simp [letters_of_tokenize hs]
    | @cons s' group' segs groups hs' hrest =>
      have htext : ("|".intercalate (s :: s' :: segs)).toList =
          s.toList ++ '|' :: ("|".intercalate (s' :: segs)).toList := by
        rw [String.intercalate_cons_cons, String.toList_append, String.toList_append, List.append_assoc]
        rfl
      have hpipe : ∀ rest, Quoting.plain.kept ('|' :: rest) = '|' :: Quoting.plain.kept rest := by
        intro rest
        rfl
      rw [htext, Quoting.kept_append, Grammar.after_eq_plain_of_ok hs, hpipe, ih, ← letters_of_tokenize hs]
      simp [List.intercalate_cons_cons]

end Joined

/-- Splitting a line and finding its words keep track of quotes alike. A line has the fault of its last segment. If
    it has words, so has every segment; with spaced pipes between them the segments have the same words, and pipes;
    and the words of the line have the characters of the words of its segments, with the pipes in between. -/
theorem segments_agree_with_words (line : String) :
    (∀ e, tokenize line = .error e ↔ tokenize ((segments line).getLast (segments_ne_nil line)) = .error e) ∧
    ∀ words, tokenize line = .ok words →
      ∃ groups, (segments line).mapM tokenize = .ok groups ∧
        tokenize (" | ".intercalate (segments line)) = .ok (["|"].intercalate groups) ∧
        letters words = ['|'].intercalate (groups.map letters) := by
  refine ⟨fun e => tokenize_eq_error_iff_getLast, ?_⟩
  intro words hwords
  obtain ⟨groups, hgroups⟩ := (exists_tokenize_iff_segments line).1 ⟨words, hwords⟩
  have hpairs := mapM_eq_ok_iff.1 hgroups
  refine ⟨groups, hgroups, tokenize_spaced_pipes hpairs, ?_⟩
  have hkept := kept_joined hpairs
  rw [intercalate_segments] at hkept
  rw [letters_of_tokenize hwords, hkept]

/-- Pipes that part words without a blank, and one behind a backslash between double quotes. -/
theorem segments_agree_with_words_around_escapes :
    tokenize "a|'b c'|\"d\\\"|e\"f" = .ok ["a|b c|d\"|ef"] ∧
      (segments "a|'b c'|\"d\\\"|e\"f").mapM tokenize = .ok [["a"], ["b c"], ["d\"|ef"]] ∧
      tokenize "a | 'b c' | \"d\\\"|e\"f" = .ok ["a", "|", "b c", "|", "d\"|ef"] ∧
      letters ["a|b c|d\"|ef"] = "a".toList ++ '|' :: "b c".toList ++ '|' :: "d\"|ef".toList := by
  have hwords : tokenize "a|'b c'|\"d\\\"|e\"f" = .ok ["a|b c|d\"|ef"] := by decide
  have hgroups : (segments "a|'b c'|\"d\\\"|e\"f").mapM tokenize = .ok [["a"], ["b c"], ["d\"|ef"]] := by decide
  obtain ⟨groups, hgroups', hspaced, hletters⟩ := (segments_agree_with_words _).2 _ hwords
  rw [hgroups] at hgroups'
  cases hgroups'
  exact ⟨hwords, hgroups, hspaced, hletters⟩

end Conch
