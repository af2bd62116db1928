-- SUMMARY: How the segments of a line come about: pieces without an active pipe, and where segments end.
import Conch.Proofs.Reading.Words
import Conch.Segment

/-!
# Segments, piece by piece

A piece of a line without an active pipe belongs to one segment as a whole, so
that joining such pieces with pipes and splitting again gives them back. A line
is only ever split outside quotes, so every segment but the last ends there too,
and only the last one can have a fault that keeps it from having words.
-/

namespace Conch

/-! ## Pieces without an active pipe -/

/-- A piece of a line that has no active pipe. It begins and ends outside quotes. -/
def Unparted (piece : List Char) : Prop :=
  ∀ segment rest,
    segmentsFrom .plain segment (piece ++ rest) = segmentsFrom .plain (piece.reverse ++ segment) rest

namespace Unparted

theorem nil : Unparted [] := fun _ _ => rfl

theorem append {p q : List Char} (hp : Unparted p) (hq : Unparted q) : Unparted (p ++ q) := by
  intro segment rest
  rw [List.append_assoc, hp, hq, List.reverse_append, List.append_assoc]

/-- A backslash protects any character, a pipe too. -/
theorem escape (c : Char) : Unparted ['\\', c] := by
  intro segment rest
  simp [segmentsFrom, Quoting.meaning, Quoting.next]

/-- A character that is neither a pipe nor a mark belongs to the segment. -/
theorem bare {c : Char} (hnext : Quoting.plain.next c = .plain) (hpipe : c ≠ pipeChar) :
    Unparted [c] := by
  intro segment rest
  simp [segmentsFrom, hnext, hpipe]

/-- Each character behind a backslash of its own. -/
theorem escapes (cs : List Char) : Unparted (cs.flatMap fun c => ['\\', c]) := by
  induction cs with
  | nil => exact nil
  | cons c cs ih => exact (escape c).append ih

/-- Pieces with single spaces between them. -/
theorem intercalate {pieces : List String} (h : ∀ p ∈ pieces, Unparted p.toList) :
    Unparted (" ".intercalate pieces).toList := by
  induction pieces with
  | nil => exact nil
  | cons p pieces ih =>
    rw [List.forall_mem_cons] at h
    cases pieces with
    | nil =>
      rw [String.intercalate_singleton]
      exact h.1
    | cons p' pieces =>
      have hspace : Unparted [' '] := bare rfl (by decide)
      rw [String.intercalate_cons_cons, String.toList_append, String.toList_append]
      exact (h.1.append hspace).append (ih h.2)

end Unparted

/-- An active pipe ends the segment. -/
theorem segmentsFrom_pipe (segment rest : List Char) :
    segmentsFrom .plain segment (pipeChar :: rest) =
      String.ofList segment.reverse :: segmentsFrom .plain [] rest := rfl

/-- Pieces without an active pipe are the segments of the line that pipes join them to. -/
theorem segments_intercalate {pieces : List String} (hne : pieces ≠ [])
    (h : ∀ p ∈ pieces, Unparted p.toList) : segments ("|".intercalate pieces) = pieces := by
  induction pieces with
  | nil => exact absurd rfl hne
  | cons p pieces ih =>
    rw [List.forall_mem_cons] at h
    have hwhole : ∀ rest, segmentsFrom .plain [] (p.toList ++ rest) =
        segmentsFrom .plain p.toList.reverse rest := by
      intro rest
      rw [h.1, List.append_nil]
    cases pieces with
    | nil =>
      have hscan := hwhole []
      rw [List.append_nil] at hscan
      rw [String.intercalate_singleton, segments, hscan]
      simp [segmentsFrom]
    | cons p' pieces =>
      have hrest := ih (List.cons_ne_nil p' pieces) h.2
      rw [segments] at hrest
      rw [String.intercalate_cons_cons, segments, String.toList_append, String.toList_append,
        List.append_assoc, hwhole]
      show segmentsFrom .plain _ (pipeChar :: ("|".intercalate (p' :: pieces)).toList) = _
      rw [segmentsFrom_pipe, hrest, List.reverse_reverse, String.ofList_toList]

/-! ## Where segments end -/

/-- Only outside quotes may a character part anything. -/
theorem Quoting.eq_plain_of_bare {q : Quoting} {c : Char} (h : q.meaning c = .bare) : q = .plain := by
  cases q with
  | plain => rfl
  | escape => cases h
  | single => simp only [Quoting.meaning] at h; split at h <;> cases h
  | double => simp only [Quoting.meaning] at h; split at h <;> cases h
  | doubleEscape => cases h

theorem segmentsFrom_ne_nil (q : Quoting) (segment cs : List Char) : segmentsFrom q segment cs ≠ [] := by
  fun_induction segmentsFrom q segment cs with
  | case1 => exact List.cons_ne_nil _ _
  | case2 => exact List.cons_ne_nil _ _
  | case3 q segment c cs hpart ih => exact ih

theorem segments_ne_nil (line : String) : segments line ≠ [] :=
  segmentsFrom_ne_nil _ _ _

/-- The invariant of the scan is that the part read of the current segment leads from outside quotes
    to the place where the scan stands. -/
theorem plain_of_mem_dropLast_segmentsFrom {q : Quoting} {segment cs : List Char}
    (hq : Quoting.plain.after segment.reverse = q) :
    ∀ s ∈ (segmentsFrom q segment cs).dropLast, Quoting.plain.after s.toList = .plain := by
  fun_induction segmentsFrom q segment cs with
  | case1 q segment => simp
  | case2 q segment c cs hpart ih =>
    rw [Bool.and_eq_true, decide_eq_true_iff, decide_eq_true_iff] at hpart
    obtain ⟨hbare, rfl⟩ := hpart
    obtain rfl := Quoting.eq_plain_of_bare hbare
    rw [List.dropLast_cons_of_ne_nil (segmentsFrom_ne_nil _ _ _), List.forall_mem_cons]
    refine ⟨?_, ih rfl⟩
    rw [String.toList_ofList]
    exact hq
  | case3 q segment c cs hpart ih =>
    refine ih ?_
    rw [List.reverse_cons, Quoting.after_append, hq]
    rfl

/-- Every segment but the last ends outside quotes. -/
theorem plain_of_mem_dropLast_segments {line segment : String}
    (h : segment ∈ (segments line).dropLast) : Quoting.plain.after segment.toList = .plain := by
  have hstart : Quoting.plain.after ([] : List Char).reverse = .plain := rfl
  exact plain_of_mem_dropLast_segmentsFrom hstart segment h

/-- With the same invariant, the scan of the line and the scan of its last segment end at one place. -/
theorem after_getLast_segmentsFrom {q : Quoting} {segment cs : List Char} {last : String}
    (hq : Quoting.plain.after segment.reverse = q)
    (hlast : (segmentsFrom q segment cs).getLast? = some last) :
    Quoting.plain.after last.toList = q.after cs := by
  fun_induction segmentsFrom q segment cs with
  | case1 q segment =>
    rw [List.getLast?_singleton, Option.some_inj] at hlast
    rw [← hlast, String.toList_ofList]
    exact hq
  | case2 q segment c cs hpart ih =>
    rw [Bool.and_eq_true, decide_eq_true_iff, decide_eq_true_iff] at hpart
    obtain ⟨hbare, rfl⟩ := hpart
    obtain rfl := Quoting.eq_plain_of_bare hbare
    rw [List.getLast?_cons_of_ne_nil (segmentsFrom_ne_nil _ _ _)] at hlast
    exact ih rfl hlast
  | case3 q segment c cs hpart ih =>
    refine ih ?_ hlast
    rw [List.reverse_cons, Quoting.after_append, hq]
    rfl

/-- A line has the fault that its last segment has. -/
theorem tokenize_eq_error_iff_getLast {line : String} {e : LexError} :
    tokenize line = .error e ↔ tokenize ((segments line).getLast (segments_ne_nil line)) = .error e := by
  have hstart : Quoting.plain.after ([] : List Char).reverse = .plain := rfl
  have hlast := after_getLast_segmentsFrom hstart (List.getLast?_eq_some_getLast (segments_ne_nil line))
  rw [tokenize_eq_error_iff, tokenize_eq_error_iff, hlast]

/-- Nothing but the active pipes is left out of the segments. -/
theorem intercalate_segmentsFrom (q : Quoting) (segment cs : List Char) :
    "|".intercalate (segmentsFrom q segment cs) = String.ofList (segment.reverse ++ cs) := by
  fun_induction segmentsFrom q segment cs with
  | case1 q segment => rw [String.intercalate_singleton, List.append_nil]
  | case2 q segment c cs hpart ih =>
    rw [Bool.and_eq_true, decide_eq_true_iff, decide_eq_true_iff] at hpart
    obtain ⟨-, rfl⟩ := hpart
    obtain ⟨next, others, hnext⟩ := List.exists_cons_of_ne_nil (segmentsFrom_ne_nil (q.next pipeChar) [] cs)
    rw [hnext] at ih ⊢
    rw [String.intercalate_cons_cons, ih]
    simp [String.ofList_append, String.append_assoc, pipeChar]
  | case3 q segment c cs hpart ih => simpa using ih

theorem intercalate_segments (line : String) : "|".intercalate (segments line) = line := by
  rw [segments, intercalate_segmentsFrom, List.reverse_nil, List.nil_append, String.ofList_toList]

/-- A line with one segment is that segment. -/
theorem segments_of_single {line : String} (h : (segments line).length = 1) : segments line = [line] := by
  obtain ⟨segment, hsegment⟩ := List.length_eq_one_iff.1 h
  have hjoin := intercalate_segments line
  rw [hsegment, String.intercalate_singleton] at hjoin
  rw [hsegment, hjoin]

/-- A segment that has no words because of a fault is the last one. -/
theorem eq_getLast_of_tokenize_eq_error {line segment : String} {e : LexError}
    (hmem : segment ∈ segments line) (herror : tokenize segment = .error e) :
    segment = (segments line).getLast (segments_ne_nil line) := by
  rw [← List.dropLast_append_getLast (segments_ne_nil line), List.mem_append] at hmem
  rcases hmem with hinit | hlast
  · obtain ⟨words, hwords⟩ := exists_tokenize_of_plain (plain_of_mem_dropLast_segments hinit)
    rw [herror] at hwords
    cases hwords
  · exact List.mem_singleton.1 hlast

end Conch
