-- SUMMARY: Two lines with a pipe between them: read as the stages of the one and then those of the other.
import Conch.Proofs.Reading.Grammar
import Conch.Proofs.Reading.Precedence
import Conch.Proofs.Reading.RoundTrip

/-!
# Joined lines

A line that has words ends outside quotes, so a pipe behind it is active, and
the segments of two lines with a pipe between them are those of the one and then
those of the other. Each segment is read for itself. Hence the joined line is the
pipeline of the stages of both, if both are commands, and if the stages that are
now inside do not redirect what only the first or the last may.

Any stages that are rightly placed are those of a command, if there are any
(`exists_command`), so it is enough to follow the stages.
-/

namespace Conch

/-! ## Segments of joined lines -/

/-- An active pipe behind a text parts what follows it from the segments of the text. -/
theorem segmentsFrom_append_pipe {q : Quoting} {segment cs : List Char} (h : q.after cs = .plain) (rest : List Char) :
    segmentsFrom q segment (cs ++ pipeChar :: rest) = segmentsFrom q segment cs ++ segmentsFrom .plain [] rest := by
  fun_induction segmentsFrom q segment cs with
  | case1 q segment =>
    obtain rfl : q = .plain := h
    rw [List.nil_append, segmentsFrom_pipe]
    rfl
  | case2 q segment c cs hpart ih =>
    rw [List.cons_append, segmentsFrom, if_pos hpart, ih h, List.cons_append]
  | case3 q segment c cs hpart ih =>
    rw [List.cons_append, segmentsFrom, if_neg hpart, ih h]

theorem segments_piped {a : String} {words : List String} (ha : tokenize a = .ok words) (b : String) :
    segments (a ++ "|" ++ b) = segments a ++ segments b := by
  have hplain : Quoting.plain.after a.toList = .plain := Grammar.after_eq_plain_of_ok ha
  have htext : (a ++ "|" ++ b).toList = a.toList ++ pipeChar :: b.toList := by
    rw [String.toList_append, String.toList_append, List.append_assoc]
    rfl
  rw [segments, htext, segmentsFrom_append_pipe hplain]
  rfl

/-! ## Lines as stages -/

/-- A segment is read as a stage. -/
def ReadsAs (segment : String) (s : Stage) : Prop :=
  ∃ words, tokenize segment = .ok words ∧ parseStage words = .ok s

section Relations

variable {α β γ : Type} {R : α → β → Prop} {S : β → γ → Prop}

theorem forall₂_comp_iff {xs : List α} {zs : List γ} :
    (∃ ys, List.Forall₂ R xs ys ∧ List.Forall₂ S ys zs) ↔ List.Forall₂ (fun x z => ∃ y, R x y ∧ S y z) xs zs := by
  constructor
  · rintro ⟨ys, hxs, hzs⟩
    induction hxs generalizing zs with
    | nil => cases hzs; exact .nil
    | cons hx hxs ih =>
      cases hzs with
      | cons hz hzs => exact .cons ⟨_, hx, hz⟩ (ih hzs)
  · intro h
    induction h with
    | nil => exact ⟨[], .nil, .nil⟩
    | cons hxz hrest ih =>
      obtain ⟨y, hx, hz⟩ := hxz
      obtain ⟨ys, hxs, hzs⟩ := ih
      exact ⟨y :: ys, .cons hx hxs, .cons hz hzs⟩

theorem forall₂_append_left_iff {xs ys : List α} {zs : List β} :
    List.Forall₂ R (xs ++ ys) zs ↔
      ∃ us vs, zs = us ++ vs ∧ List.Forall₂ R xs us ∧ List.Forall₂ R ys vs := by
  constructor
  · intro h
    induction xs generalizing zs with
    | nil => exact ⟨[], zs, rfl, .nil, h⟩
    | cons x xs ih =>
      cases h with
      | cons hx hrest =>
        obtain ⟨us, vs, rfl, hxs, hys⟩ := ih hrest
        exact ⟨_ :: us, vs, rfl, .cons hx hxs, hys⟩
  · rintro ⟨us, vs, rfl, hxs, hys⟩
    exact List.rel_append hxs hys

end Relations

theorem parseStage_words_ne_nil {words : List String} {s : Stage} (h : parseStage words = .ok s) : words ≠ [] := by
  rintro rfl
  cases h

theorem stagesOf_iff {line : String} {stages : List Stage} :
    StagesOf line stages ↔ 2 ≤ (segments line).length ∧ List.Forall₂ ReadsAs (segments line) stages := by
  have hreads : List.Forall₂ ReadsAs (segments line) stages ↔
      List.Forall₂ (fun segment s => ∃ words, (tokenize segment = .ok words ∧ words ≠ []) ∧ parseStage words = .ok s)
        (segments line) stages := by
    constructor
    · refine fun h => h.imp ?_
      rintro segment s ⟨words, hwords, hs⟩
      exact ⟨words, ⟨hwords, parseStage_words_ne_nil hs⟩, hs⟩
    · refine fun h => h.imp ?_
      rintro segment s ⟨words, ⟨hwords, -⟩, hs⟩
      exact ⟨words, hwords, hs⟩
  rw [hreads, ← forall₂_comp_iff]
  constructor
  · rintro ⟨groups, ⟨hseveral, hwords⟩, hstages⟩
    exact ⟨hseveral, groups, hwords, hstages⟩
  · rintro ⟨hseveral, groups, hwords, hstages⟩
    exact ⟨groups, ⟨hseveral, hwords⟩, hstages⟩

/-- A line is read as a command exactly if its segments are read as the stages of it. -/
theorem parse_eq_ok_iff {line : String} {c : Command} :
    parse line = .ok c ↔ List.Forall₂ ReadsAs (segments line) c.stages := by
  constructor
  · intro h
    obtain ⟨r, hverdict⟩ := exists_verdict line
    have hr : r = .ok c := by rw [← hverdict.parse_eq, h]
    cases hverdict with
    | @single words hsingle hwords hne =>
      cases hs : parseStage words with
      | error e => rw [hs] at hr; cases hr
      | ok s =>
        rw [hs] at hr
        cases hr
        rw [segments_of_single hsingle]
        exact .cons ⟨words, hwords, hs⟩ .nil
    | pipeline hstages =>
      cases hr
      exact (stagesOf_iff.1 hstages).2
    | fault hsingle hfault => cases hr
    | nothing hsingle hnothing => cases hr
    | emptySegment hseveral hmem hempty => cases hr
    | lastFault hseveral hne hfault => cases hr
    | malformed hwords hbefore hfault => cases hr
    | inputNotFirst hstages hbefore hplace hinput => cases hr
    | outputNotLast hstages hbefore hplace hinput houtput => cases hr
  · intro h
    cases c with
    | stage s =>
      have hsingle : (segments line).length = 1 := h.length_eq
      rw [segments_of_single hsingle] at h
      cases h with
      | cons hs hrest =>
        obtain ⟨words, hwords, hs⟩ := hs
        rw [(Verdict.single hsingle hwords (parseStage_words_ne_nil hs)).parse_eq, hs]
        rfl
    | pipeline p =>
      have hseveral : 2 ≤ (segments line).length := by
        rw [h.length_eq]
        exact p.two_le
      exact (Verdict.pipeline (stagesOf_iff.2 ⟨hseveral, h⟩)).parse_eq

/-! ## Commands by their stages -/

theorem Command.placed (c : Command) : Placed c.stages := by
  cases c with
  | stage s => exact ⟨by simp [Command.stages], by simp [Command.stages]⟩
  | pipeline p => exact p.placed

/-- Stages that are placed rightly are those of a command, if there are any. -/
theorem exists_command {stages : List Stage} (hne : stages ≠ []) (hplaced : Placed stages) :
    ∃ c : Command, c.stages = stages := by
  match stages with
  | [] => exact absurd rfl hne
  | [s] => exact ⟨.stage s, rfl⟩
  | s :: t :: rest => exact ⟨.pipeline ⟨s :: t :: rest, by simp, hplaced⟩, rfl⟩

/-- The first stage of a command. -/
def Command.first (c : Command) : Stage := c.stages.head c.stages_ne_nil

/-- The last stage of a command. -/
def Command.last (c : Command) : Stage := c.stages.getLast c.stages_ne_nil

theorem Command.stages_eq_first (c : Command) : c.stages = c.first :: c.stages.drop 1 := by
  rw [List.drop_one, Command.first, List.cons_head_tail]

theorem Command.stages_eq_last (c : Command) : c.stages = c.stages.dropLast ++ [c.last] :=
  (List.dropLast_append_getLast c.stages_ne_nil).symm

/-- What is placed rightly in the whole is placed rightly in its parts. -/
theorem Placed.parts {before behind : List Stage} (h : Placed (before ++ behind)) (hbefore : before ≠ [])
    (hbehind : behind ≠ []) : Placed before ∧ Placed behind := by
  rw [Placed, List.drop_append_of_le_length (List.length_pos_iff.2 hbefore),
    List.dropLast_append_of_ne_nil hbehind] at h
  simp only [List.forall_mem_append] at h
  obtain ⟨⟨hinput_before, hinput_behind⟩, houtput_before, houtput_behind⟩ := h
  exact ⟨⟨hinput_before, fun s hs => houtput_before s (List.dropLast_subset _ hs)⟩,
    ⟨fun s hs => hinput_behind s (List.drop_subset _ _ hs), houtput_behind⟩⟩

/-- The stages of two commands are placed rightly behind each other if the inner ones allow it. -/
theorem placed_append_iff (ca cb : Command) :
    Placed (ca.stages ++ cb.stages) ↔ ca.last.stdout? = none ∧ cb.first.stdin? = none := by
  have hdrop : (ca.stages ++ cb.stages).drop 1 = ca.stages.drop 1 ++ cb.first :: cb.stages.drop 1 := by
    rw [← cb.stages_eq_first, ca.stages_eq_first]
    simp
  have hdropLast : (ca.stages ++ cb.stages).dropLast = ca.stages.dropLast ++ ca.last :: cb.stages.dropLast := by
    rw [List.dropLast_append_of_ne_nil cb.stages_ne_nil, List.append_cons, ← ca.stages_eq_last]
  obtain ⟨ha_in, ha_out⟩ := ca.placed
  obtain ⟨hb_in, hb_out⟩ := cb.placed
  rw [Placed, hdrop, hdropLast]
  simp only [List.forall_mem_append, List.forall_mem_cons]
  tauto

/-! ## Joined lines -/

section Joined

variable {a b : String} {words : List String} {ca cb : Command}

/-- The stages of a joined line are those of the two lines. -/
theorem stagesOf_piped (ha : tokenize a = .ok words) (hca : parse a = .ok ca) (hcb : parse b = .ok cb) :
    StagesOf (a ++ "|" ++ b) (ca.stages ++ cb.stages) := by
  have hreads : List.Forall₂ ReadsAs (segments a ++ segments b) (ca.stages ++ cb.stages) :=
    List.rel_append (parse_eq_ok_iff.1 hca) (parse_eq_ok_iff.1 hcb)
  rw [← segments_piped ha b] at hreads
  refine stagesOf_iff.2 ⟨?_, hreads⟩
  rw [hreads.length_eq, List.length_append]
  have hone := List.length_pos_iff.2 ca.stages_ne_nil
  have htwo := List.length_pos_iff.2 cb.stages_ne_nil
  omega

/-- A joined line that is a command is made of two that are. -/
theorem exists_parse_of_piped (ha : tokenize a = .ok words) {c : Command} (h : parse (a ++ "|" ++ b) = .ok c) :
    ∃ ca cb, parse a = .ok ca ∧ parse b = .ok cb ∧ c.stages = ca.stages ++ cb.stages := by
  rw [parse_eq_ok_iff, segments_piped ha, forall₂_append_left_iff] at h
  obtain ⟨before, behind, hstages, hbefore, hbehind⟩ := h
  have hplaced : Placed (before ++ behind) := hstages ▸ c.placed
  have hbefore_ne : before ≠ [] := by
    rintro rfl
    exact segments_ne_nil a (List.forall₂_nil_right_iff.1 hbefore)
  have hbehind_ne : behind ≠ [] := by
    rintro rfl
    exact segments_ne_nil b (List.forall₂_nil_right_iff.1 hbehind)
  obtain ⟨hplaced_before, hplaced_behind⟩ := hplaced.parts hbefore_ne hbehind_ne
  obtain ⟨ca, rfl⟩ := exists_command hbefore_ne hplaced_before
  obtain ⟨cb, rfl⟩ := exists_command hbehind_ne hplaced_behind
  exact ⟨ca, cb, parse_eq_ok_iff.2 hbefore, parse_eq_ok_iff.2 hbehind, hstages⟩

/-- Two commands that may stand behind each other are joined to a pipeline. -/
theorem parse_piped_of_placed (ha : tokenize a = .ok words) (hca : parse a = .ok ca) (hcb : parse b = .ok cb)
    (houtput : ca.last.stdout? = none) (hinput : cb.first.stdin? = none) :
    ∃ p : Pipeline, parse (a ++ "|" ++ b) = .ok (.pipeline p) ∧ p.stages = ca.stages ++ cb.stages := by
  have hstages := stagesOf_piped ha hca hcb
  obtain ⟨hseveral, hreads⟩ := stagesOf_iff.1 hstages
  have htwo : 2 ≤ (ca.stages ++ cb.stages).length := by
    rw [← hreads.length_eq]
    exact hseveral
  have hplaced := (placed_append_iff ca cb).2 ⟨houtput, hinput⟩
  exact ⟨⟨_, htwo, hplaced⟩, (Verdict.pipeline (p := ⟨_, htwo, hplaced⟩) hstages).parse_eq, rfl⟩

/-- An output file of what becomes an inner stage is refused first. -/
theorem parse_piped_of_output (ha : tokenize a = .ok words) (hca : parse a = .ok ca) (hcb : parse b = .ok cb)
    (houtput : ca.last.stdout? ≠ none) :
    parse (a ++ "|" ++ b) = .error (.build (.misplaced (if ca.last.appends then .append else .output) .last)) := by
  obtain ⟨ha_in, ha_out⟩ := ca.placed
  have hstages := stagesOf_piped ha hca hcb
  rw [ca.stages_eq_last, List.append_assoc, List.singleton_append] at hstages
  refine (Verdict.outputNotLast hstages ⟨?_, ha_out⟩ cb.stages_ne_nil ?_ houtput).parse_eq
  · intro s hs
    exact ha_in s (((List.dropLast_sublist ca.stages).drop 1).subset hs)
  · by_cases hfirst : ca.stages.dropLast = []
    · exact .inl hfirst
    · refine .inr (ha_in _ ?_)
      rw [ca.stages_eq_last, List.drop_append_of_le_length (List.length_pos_iff.2 hfirst)]
      exact List.mem_append_right _ (List.mem_singleton_self _)

/-- Then an input file is. -/
theorem parse_piped_of_input (ha : tokenize a = .ok words) (hca : parse a = .ok ca) (hcb : parse b = .ok cb)
    (houtput : ca.last.stdout? = none) (hinput : cb.first.stdin? ≠ none) :
    parse (a ++ "|" ++ b) = .error (.build (.misplaced .input .first)) := by
  obtain ⟨ha_in, ha_out⟩ := ca.placed
  have hstages := stagesOf_piped ha hca hcb
  rw [cb.stages_eq_first] at hstages
  refine (Verdict.inputNotFirst hstages ⟨ha_in, ?_⟩ ca.stages_ne_nil hinput).parse_eq
  rw [ca.stages_eq_last]
  exact List.forall_mem_append.2 ⟨ha_out, List.forall_mem_singleton.2 houtput⟩

end Joined

/-- A pipe between two lines joins what they are read as, whenever the first of them has words: to the pipeline of
    the stages of both, exactly if both are commands, the last stage of the one has no output file and the first of
    the other no input file. If only a file is in the way, it is the output file that is told of before the input
    file. -/
theorem parse_joins_at_pipe (a b : String) (words : List String) (ha : tokenize a = .ok words) :
    ((∃ c, parse (a ++ "|" ++ b) = .ok c) ↔
      ∃ ca cb, parse a = .ok ca ∧ parse b = .ok cb ∧ ca.last.stdout? = none ∧ cb.first.stdin? = none) ∧
    ∀ ca cb, parse a = .ok ca → parse b = .ok cb →
      (ca.last.stdout? = none → cb.first.stdin? = none →
        ∃ p : Pipeline, parse (a ++ "|" ++ b) = .ok (.pipeline p) ∧ p.stages = ca.stages ++ cb.stages) ∧
      (ca.last.stdout? ≠ none → parse (a ++ "|" ++ b) =
        .error (.build (.misplaced (if ca.last.appends then .append else .output) .last))) ∧
      (ca.last.stdout? = none → cb.first.stdin? ≠ none →
        parse (a ++ "|" ++ b) = .error (.build (.misplaced .input .first))) := by
  constructor
  · constructor
    · rintro ⟨c, hc⟩
      obtain ⟨ca, cb, hca, hcb, hstages⟩ := exists_parse_of_piped ha hc
      have hplaced : Placed (ca.stages ++ cb.stages) := hstages ▸ c.placed
      exact ⟨ca, cb, hca, hcb, (placed_append_iff ca cb).1 hplaced⟩
    · rintro ⟨ca, cb, hca, hcb, houtput, hinput⟩
      obtain ⟨p, hp, -⟩ := parse_piped_of_placed ha hca hcb houtput hinput
      exact ⟨_, hp⟩
  · intro ca cb hca hcb
    exact ⟨parse_piped_of_placed ha hca hcb, parse_piped_of_output ha hca hcb, parse_piped_of_input ha hca hcb⟩

/-- A quoted pipe and files at both ends, and two lines that both have a file in the way. -/
theorem parse_joins_at_pipe_of_files :
    (∃ p : Pipeline, parse ("cat < in 'x|y'" ++ "|" ++ "sort | uniq >> out") = .ok (.pipeline p) ∧
      p.stages.map (·.executable) = ["cat", "sort", "uniq"]) ∧
    parse ("cat >> log" ++ "|" ++ "sort < in") = .error (.build (.misplaced .append .last)) := by
  have hquoted : tokenize "cat < in 'x|y'" = .ok ["cat", "<", "in", "x|y"] := by decide
  have hlog : tokenize "cat >> log" = .ok ["cat", ">>", "log"] := by decide
  constructor
  · obtain ⟨-, hjoined⟩ := parse_joins_at_pipe "cat < in 'x|y'" "sort | uniq >> out" _ hquoted
    have hca : parse "cat < in 'x|y'" = .ok (.stage ⟨"cat", ["x|y"], some { stdin := some "in" }, by decide⟩) := by
      decide
    have hcb : parse "sort | uniq >> out" = .ok (.pipeline ⟨[⟨"sort", [], none, by decide⟩,
        ⟨"uniq", [], some { stdout := some "out", append := true }, by decide⟩], by decide, by decide⟩) := by
      decide
    obtain ⟨p, hp, hstages⟩ := (hjoined _ _ hca hcb).1 rfl rfl
    exact ⟨p, hp, by rw [hstages]; rfl⟩
  · obtain ⟨-, hjoined⟩ := parse_joins_at_pipe "cat >> log" "sort < in" _ hlog
    have hca : parse "cat >> log" =
        .ok (.stage ⟨"cat", [], some { stdout := some "log", append := true }, by decide⟩) := by decide
    have hcb : parse "sort < in" = .ok (.stage ⟨"sort", [], some { stdin := some "in" }, by decide⟩) := by decide
    exact (hjoined _ _ hca hcb).2.1 (by decide)

-- an open quote before the pipe hides it
example : parse ("cat 'x" ++ "|" ++ "sort' y") = .ok (.stage ⟨"cat", ["x|sort", "y"], none, by decide⟩) := by decide

end Conch
