-- SUMMARY: Reading a pipeline: going through its segments and stages, and the placement of redirections.
import Conch.Proofs.Reading.Segments
import Conch.Proofs.Reading.Stages

/-!
# Reading pipelines

A pipeline is read by going through its segments, then through the words of its
stages, then through the stages; each time the first fault on the left wins. The
placement check and the conditions of the type `Pipeline` are the same, so a
pipeline that passes the check can always be built.
-/

namespace Conch

/-! ## Going through a list -/

section Traversal

variable {α β ε : Type} {f : α → Except ε β}

/-- Going through a list succeeds exactly if each element gives a result. -/
theorem mapM_eq_ok_iff {xs : List α} {ys : List β} :
    xs.mapM f = .ok ys ↔ List.Forall₂ (fun x y => f x = .ok y) xs ys := by
  induction xs generalizing ys with
  | nil =>
    constructor
    · intro h
      cases h
      exact .nil
    · intro h
      cases h
      rfl
  | cons x xs ih =>
    rw [List.mapM_cons]
    constructor
    · intro h
      cases hx : f x with
      | error e => rw [hx] at h; cases h
      | ok y =>
        cases hxs : xs.mapM f with
        | error e => rw [hx, hxs] at h; cases h
        | ok ys' =>
          rw [hx, hxs] at h
          cases h
          exact .cons hx (ih.1 hxs)
    · intro h
      cases h with
      | cons hx hxs =>
        rw [hx, ih.2 hxs]
        rfl

/-- Going through a list fails with the fault of the first element that has one. -/
theorem mapM_eq_error_iff {xs : List α} {e : ε} :
    xs.mapM f = .error e ↔
      ∃ before x behind, xs = before ++ x :: behind ∧ (∀ y ∈ before, ∃ z, f y = .ok z) ∧ f x = .error e := by
  induction xs with
  | nil =>
    constructor
    · intro h
      cases h
    · rintro ⟨before, x, behind, hsplit, -, -⟩
      simp at hsplit
  | cons x xs ih =>
    rw [List.mapM_cons]
    cases hx : f x with
    | error e' =>
      constructor
      · intro h
        cases h
        exact ⟨[], x, xs, rfl, fun _ hmem => absurd hmem List.not_mem_nil, hx⟩
      · rintro ⟨before, y, behind, hsplit, hbefore, hy⟩
        cases before with
        | nil =>
          obtain ⟨rfl, rfl⟩ := List.cons.inj hsplit
          rw [hx] at hy
          cases hy
          rfl
        | cons z before =>
          obtain ⟨rfl, -⟩ := List.cons.inj hsplit
          obtain ⟨w, hw⟩ := hbefore x List.mem_cons_self
          rw [hx] at hw
          cases hw
    | ok y =>
      have hstep : (do let y ← Except.ok y; let ys ← xs.mapM f; pure (y :: ys)) = .error e ↔
          xs.mapM f = .error e := by
        cases xs.mapM f with
        | error e' => exact Iff.rfl
        | ok ys =>
          constructor
          · intro h
            cases h
          · intro h
            cases h
      rw [hstep, ih]
      constructor
      · rintro ⟨before, x', behind, rfl, hbefore, hx'⟩
        exact ⟨x :: before, x', behind, rfl, List.forall_mem_cons.2 ⟨⟨y, hx⟩, hbefore⟩, hx'⟩
      · rintro ⟨before, x', behind, hsplit, hbefore, hx'⟩
        cases before with
        | nil =>
          obtain ⟨rfl, rfl⟩ := List.cons.inj hsplit
          rw [hx] at hx'
          cases hx'
        | cons z before =>
          obtain ⟨rfl, rfl⟩ := List.cons.inj hsplit
          exact ⟨before, x', behind, rfl, (List.forall_mem_cons.1 hbefore).2, hx'⟩

/-- In two lists that are related element by element, each element on the right has one on the left. -/
theorem exists_of_forall₂_of_mem {R : α → β → Prop} {xs : List α} {ys : List β}
    (h : List.Forall₂ R xs ys) {y : β} (hy : y ∈ ys) : ∃ x ∈ xs, R x y := by
  induction h with
  | nil => cases hy
  | @cons x y' xs ys hhead htail ih =>
    rcases List.mem_cons.1 hy with rfl | hy
    · exact ⟨x, List.mem_cons_self, hhead⟩
    · obtain ⟨x', hmem, hrel⟩ := ih hy
      exact ⟨x', List.mem_cons_of_mem x hmem, hrel⟩

end Traversal

/-! ## Segments -/

/-- A line with one segment is read as a single stage. -/
theorem parse_of_single {line : String} (h : (segments line).length = 1) :
    parse line =
      match tokenize line with
      | .error e => .error (.lex e)
      | .ok [] => .error (.build .emptyInput)
      | .ok words => (parseStage words).map .stage := by
  obtain ⟨segment, hsegment⟩ := List.length_eq_one_iff.1 h
  cases hwords : tokenize line with
  | error e => simp only [parse, hsegment, hwords]
  | ok words =>
    cases words with
    | nil => simp only [parse, hsegment, hwords]
    | cons word rest => simp only [parse, hsegment, hwords]

/-- A line with several segments is read segment by segment. -/
theorem parse_of_several {line : String} (h : 2 ≤ (segments line).length) :
    parse line = (segments line).mapM segmentWords >>= assemble := by
  rw [parse]
  split
  · rename_i segment hsegment
    rw [hsegment] at h
    simp at h
  · rfl

/-- The test for a blank segment decides nothing that the words do not decide: without it the
    outcome is the same. -/
theorem segmentWords_eq (segment : String) :
    segmentWords segment =
      match tokenize segment with
      | .error e => .error (.lex e)
      | .ok [] => .error (.build .emptySegment)
      | .ok words => .ok words := by
  rw [segmentWords]
  split
  · rename_i hblank
    rw [tokenize_of_trim_eq_empty hblank]
  · rfl

theorem segmentWords_eq_ok_iff {segment : String} {words : List String} :
    segmentWords segment = .ok words ↔ tokenize segment = .ok words ∧ words ≠ [] := by
  rw [segmentWords_eq]
  split
  · rename_i e htokens
    simp [htokens]
  · rename_i htokens
    simp [htokens, eq_comm]
  · rename_i found hne htokens
    rw [htokens]
    constructor
    · intro h
      cases h
      exact ⟨rfl, fun hnil => hne hnil⟩
    · rintro ⟨h, -⟩
      cases h
      rfl

theorem segmentWords_eq_error_iff {segment : String} {e : CommandError} :
    segmentWords segment = .error e ↔
      (tokenize segment = .ok [] ∧ e = .build .emptySegment) ∨
        ∃ fault, tokenize segment = .error fault ∧ e = .lex fault := by
  rw [segmentWords_eq]
  split
  · rename_i fault htokens
    simp [htokens, eq_comm]
  · rename_i htokens
    simp [htokens, eq_comm]
  · rename_i found hne htokens
    rw [htokens]
    constructor
    · intro h
      cases h
    · rintro (⟨h, -⟩ | ⟨fault, h, -⟩)
      · cases h
        exact absurd rfl hne
      · cases h

/-! ## Placement -/

theorem misplacedOn_eq_none_iff {isFirst isLast : Bool} {s : Stage} :
    misplacedOn isFirst isLast s = none ↔
      (isFirst = true ∨ s.stdin? = none) ∧ (isLast = true ∨ s.stdout? = none) := by
  unfold misplacedOn
  cases isFirst <;> cases isLast <;> cases s.stdin? <;> cases s.stdout? <;> simp

/-- Stages at the beginning of a longer pipeline, none of which redirects what its place does not
    allow. -/
def PlacedBefore (isFirst : Bool) (before : List Stage) : Prop :=
  (∀ s ∈ before.drop (if isFirst then 1 else 0), s.stdin? = none) ∧ ∀ s ∈ before, s.stdout? = none

theorem placedBefore_cons_iff {isFirst : Bool} {s : Stage} {before : List Stage} :
    PlacedBefore isFirst (s :: before) ↔
      misplacedOn isFirst false s = none ∧ PlacedBefore false before := by
  rw [misplacedOn_eq_none_iff]
  cases isFirst with
  | true => simp [PlacedBefore, and_left_comm]
  | false => simp [PlacedBefore]; tauto

/-- What is misplaced in a pipeline is misplaced on the leftmost stage on which anything is. -/
theorem misplacedFrom_eq_some_iff {isFirst : Bool} {stages : List Stage} {e : BuildError} :
    misplacedFrom isFirst stages = some e ↔
      ∃ before s behind, stages = before ++ s :: behind ∧ PlacedBefore isFirst before ∧
        misplacedOn (isFirst && before.isEmpty) behind.isEmpty s = some e := by
  induction stages generalizing isFirst with
  | nil => simp [misplacedFrom]
  | cons s rest ih =>
    rw [misplacedFrom]
    constructor
    · intro h
      split at h
      · rename_i e' hs
        cases h
        exact ⟨[], s, rest, rfl, by simp [PlacedBefore], by simpa using hs⟩
      · rename_i hs
        obtain ⟨before, s', behind, rfl, hbefore, hs'⟩ := ih.1 h
        have hrest : (before ++ s' :: behind).isEmpty = false := by simp
        rw [hrest] at hs
        exact ⟨s :: before, s', behind, rfl, placedBefore_cons_iff.2 ⟨hs, hbefore⟩, by simpa using hs'⟩
    · rintro ⟨before, s', behind, hsplit, hbefore, hs'⟩
      cases before with
      | nil =>
        obtain ⟨rfl, rfl⟩ := List.cons.inj hsplit
        rw [List.isEmpty_nil, Bool.and_true] at hs'
        rw [hs']
      | cons t before =>
        rw [List.cons_append, List.cons.injEq] at hsplit
        obtain ⟨rfl, rfl⟩ := hsplit
        obtain ⟨hs, hbefore⟩ := placedBefore_cons_iff.1 hbefore
        have hrest : (before ++ s' :: behind).isEmpty = false := by simp
        rw [hrest, hs]
        exact ih.2 ⟨before, s', behind, rfl, hbefore, by simpa using hs'⟩

/-- The placement check passes exactly those stages that a pipeline may have. -/
theorem misplacedFrom_eq_none_iff {isFirst : Bool} {stages : List Stage} :
    misplacedFrom isFirst stages = none ↔
      (∀ s ∈ stages.drop (if isFirst then 1 else 0), s.stdin? = none) ∧
        ∀ s ∈ stages.dropLast, s.stdout? = none := by
  induction stages generalizing isFirst with
  | nil => simp [misplacedFrom]
  | cons s rest ih =>
    have hstep : misplacedFrom isFirst (s :: rest) = none ↔
        misplacedOn isFirst rest.isEmpty s = none ∧ misplacedFrom false rest = none := by
      rw [misplacedFrom]
      cases misplacedOn isFirst rest.isEmpty s with
      | some e => simp
      | none => simp
    rw [hstep, ih, misplacedOn_eq_none_iff]
    cases rest with
    | nil => cases isFirst <;> simp
    | cons t rest => cases isFirst <;> simp <;> tauto

theorem misplaced_eq_none_iff {stages : List Stage} : misplaced stages = none ↔ Placed stages :=
  misplacedFrom_eq_none_iff

/-- A pipeline is built from its own stages. -/
theorem Pipeline.ofStages_stages (p : Pipeline) : Pipeline.ofStages p.stages = .ok p := by
  rw [Pipeline.ofStages, dif_pos p.two_le, dif_pos p.placed.1, dif_pos p.placed.2]

theorem Pipeline.stages_of_ofStages {stages : List Stage} {p : Pipeline} (h : Pipeline.ofStages stages = .ok p) :
    p.stages = stages := by
  unfold Pipeline.ofStages at h
  split at h
  · split at h
    · split at h
      · cases h
        rfl
      · cases h
    · cases h
  · cases h

/-! ## Assembling -/

/-- Words of stages that form a pipeline are read as that pipeline. -/
theorem assemble_of_pipeline {groups : List (List String)} {p : Pipeline}
    (h : List.Forall₂ (fun words s => parseStage words = .ok s) groups p.stages) :
    assemble groups = .ok (.pipeline p) := by
  have hplaced : misplaced p.stages = none := misplaced_eq_none_iff.2 p.placed
  simp only [assemble, mapM_eq_ok_iff.2 h, bind, Except.bind, hplaced, p.ofStages_stages]
  rfl

/-- Words of stages of which one is misplaced are refused for the leftmost such one. -/
theorem assemble_of_misplaced {groups : List (List String)} {stages : List Stage} {e : BuildError}
    (h : List.Forall₂ (fun words s => parseStage words = .ok s) groups stages)
    (hmisplaced : misplaced stages = some e) : assemble groups = .error (.build e) := by
  simp only [assemble, mapM_eq_ok_iff.2 h, bind, Except.bind, hmisplaced]
  rfl

/-- Words of stages of which one is malformed are refused for the leftmost such one. -/
theorem assemble_of_malformed {groups : List (List String)} {e : CommandError}
    (h : groups.mapM parseStage = .error e) : assemble groups = .error e := by
  rw [assemble, h]
  rfl

/-- A pipeline is read from the words of its stages and from nothing else. -/
theorem assemble_eq_ok_iff {groups : List (List String)} {c : Command} :
    assemble groups = .ok c ↔
      ∃ p : Pipeline, c = .pipeline p ∧
        List.Forall₂ (fun words s => parseStage words = .ok s) groups p.stages := by
  constructor
  · intro h
    cases hstages : groups.mapM parseStage with
    | error e =>
      rw [assemble_of_malformed hstages] at h
      cases h
    | ok stages =>
      have hpairs := mapM_eq_ok_iff.1 hstages
      cases hmisplaced : misplaced stages with
      | some e =>
        rw [assemble_of_misplaced hpairs hmisplaced] at h
        cases h
      | none =>
        simp only [assemble, hstages, bind, Except.bind, hmisplaced] at h
        cases hp : Pipeline.ofStages stages with
        | error e =>
          rw [hp] at h
          cases h
        | ok p =>
          rw [hp] at h
          cases h
          rw [← Pipeline.stages_of_ofStages hp] at hpairs
          exact ⟨p, rfl, hpairs⟩
  · rintro ⟨p, rfl, hpairs⟩
    exact assemble_of_pipeline hpairs

end Conch
