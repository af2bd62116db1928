-- SUMMARY: Where the constructors of commands have the last word: never for a line, and for words only if an executable is empty.
import Conch.Proofs.Reading.Building
import Conch.Proofs.Reading.StageGrammar

/-!
# Construction

The rules of a pipeline are there twice, once as a check on stages that were read
and once in the constructor, and they are the same rules. So the constructor never
refuses what the check has passed. What is left to the constructors is an empty
executable. A line has no empty words, but words that are given directly may
have: then an empty executable is refused, unless something else is wrong first.
-/

namespace Conch

/-! ## Pipelines -/

/-- The constructor takes stages exactly if there are enough and each redirects only what its place allows. -/
theorem Pipeline.exists_ofStages_iff {stages : List Stage} :
    (∃ p, Pipeline.ofStages stages = .ok p) ↔ 2 ≤ stages.length ∧ Placed stages := by
  constructor
  · rintro ⟨p, hp⟩
    rw [← Pipeline.stages_of_ofStages hp]
    exact ⟨p.two_le, p.placed⟩
  · rintro ⟨htwo, hplaced⟩
    exact ⟨⟨stages, htwo, hplaced⟩, Pipeline.ofStages_stages ⟨stages, htwo, hplaced⟩⟩

/-- The check on stages that were read and the constructor apply the same rules. -/
theorem misplaced_eq_none_iff_ofStages {stages : List Stage} (htwo : 2 ≤ stages.length) :
    misplaced stages = none ↔ ∃ p, Pipeline.ofStages stages = .ok p := by
  rw [misplaced_eq_none_iff, Pipeline.exists_ofStages_iff, and_iff_right htwo]

/-- Of what it takes to assemble a pipeline, only reading its stages can meet a refusal of a constructor. -/
theorem assemble_eq_construct_iff {groups : List (List String)} {e : ConstructError} (htwo : 2 ≤ groups.length) :
    assemble groups = .error (.construct e) ↔ groups.mapM parseStage = .error (.construct e) := by
  refine ⟨fun h => ?_, assemble_of_malformed⟩
  cases hstages : groups.mapM parseStage with
  | error e' =>
    rw [assemble_of_malformed hstages] at h
    cases h
    rfl
  | ok stages =>
    have hpairs := mapM_eq_ok_iff.1 hstages
    exfalso
    cases hmisplaced : misplaced stages with
    | some e' =>
      rw [assemble_of_misplaced hpairs hmisplaced] at h
      cases h
    | none =>
      rw [hpairs.length_eq] at htwo
      have hpipeline := assemble_of_pipeline (p := ⟨stages, htwo, misplaced_eq_none_iff.1 hmisplaced⟩) hpairs
      rw [hpipeline] at h
      cases h

/-! ## Stages -/

/-- Words that would be a stage if their executable were not empty. -/
def NamelessStage (ws : List String) : Prop :=
  ∃ found, (∀ item ∈ found, item.Readable) ∧ ws = "" :: itemWords found

theorem parseStage_eq_construct_iff {ws : List String} {e : ConstructError} :
    parseStage ws = .error (.construct e) ↔ NamelessStage ws ∧ e = .emptyExecutable := by
  rw [parseStage_eq_error_iff]
  constructor
  · intro h
    cases h with
    | emptyName hread => exact ⟨⟨_, hread, rfl⟩, rfl⟩
  · rintro ⟨⟨found, hread, rfl⟩, rfl⟩
    exact .emptyName hread

/-- Words of a text are never a stage without a name, since none of them is empty. -/
theorem parseStage_ne_construct {ws : List String} (h : "" ∉ ws) (e : ConstructError) :
    parseStage ws ≠ .error (.construct e) := by
  intro herror
  obtain ⟨⟨found, -, rfl⟩, -⟩ := parseStage_eq_construct_iff.1 herror
  exact h List.mem_cons_self

/-! ## Lines and words -/

/-- No line is refused by a constructor. -/
theorem parse_ne_construct (line : String) (e : ConstructError) : parse line ≠ .error (.construct e) := by
  intro h
  obtain ⟨r, hverdict⟩ := exists_verdict line
  have hr : r = .error (.construct e) := by rw [← hverdict.parse_eq, h]
  cases hverdict with
  | fault hsingle hfault => cases hr
  | nothing hsingle hnothing => cases hr
  | @single words hsingle hwords hne =>
    cases hstage : parseStage words with
    | ok s => rw [hstage] at hr; cases hr
    | error e' =>
      rw [hstage] at hr
      cases hr
      exact parseStage_ne_construct (empty_notMem_tokenize hwords) e hstage
  | emptySegment hseveral hmem hempty => cases hr
  | lastFault hseveral hne hfault => cases hr
  | @malformed before behind words e' hwords hbefore hfault =>
    cases hr
    obtain ⟨segment, -, htokens, -⟩ := exists_of_forall₂_of_mem hwords.2 (List.mem_append_right before List.mem_cons_self)
    exact parseStage_ne_construct (empty_notMem_tokenize htokens) e hfault
  | inputNotFirst hstages hbefore hplace hinput => cases hr
  | outputNotLast hstages hbefore hplace hinput houtput => cases hr
  | pipeline hstages => cases hr

theorem groupsOf_ne_nil (words : List String) : groupsOf words ≠ [] := by
  fun_induction groupsOf words with
  | case1 => exact List.cons_ne_nil _ _
  | case2 rest ih => exact List.cons_ne_nil _ _
  | case3 word rest hword hnil ih => exact List.cons_ne_nil _ _
  | case4 word rest hword group groups hgroups ih => exact List.cons_ne_nil _ _

theorem build_of_one_group {words group : List String} (hne : words ≠ []) (h : groupsOf words = [group]) :
    build words = (parseStage group).map .stage := by
  rw [build, if_neg (by simpa using hne), h]

/-- An empty group among several decides. -/
theorem build_of_groups {words group next : List String} {others : List (List String)} (hne : words ≠ [])
    (h : groupsOf words = group :: next :: others) :
    build words =
      if (groupsOf words).any List.isEmpty then .error (.build .emptySegment) else assemble (groupsOf words) := by
  rw [build, if_neg (by simpa using hne), h]

/-- A constructor refuses words exactly if the leftmost group that is no stage only lacks a name. -/
theorem build_eq_construct_iff {words : List String} {e : ConstructError} :
    build words = .error (.construct e) ↔
      words ≠ [] ∧ (2 ≤ (groupsOf words).length → [] ∉ groupsOf words) ∧
        (groupsOf words).mapM parseStage = .error (.construct e) := by
  by_cases hnil : words = []
  · subst hnil
    simp [build]
  cases hgroups : groupsOf words with
  | nil => exact absurd hgroups (groupsOf_ne_nil words)
  | cons group others =>
    cases others with
    | nil =>
      rw [build_of_one_group hnil hgroups]
      cases hstage : parseStage group <;> simp [hstage, hnil, Except.map, bind, Except.bind, pure, Except.pure]
    | cons next others =>
      have htwo : 2 ≤ (group :: next :: others).length := by simp
      rw [build_of_groups hnil hgroups, hgroups]
      split
      · rename_i hany
        obtain ⟨empty, hmem, hempty⟩ := List.any_eq_true.1 hany
        obtain rfl := List.isEmpty_iff.1 hempty
        simp [hmem]
      · rename_i hany
        have hfull : [] ∉ group :: next :: others := fun hmem => hany (List.any_eq_true.2 ⟨[], hmem, rfl⟩)
        rw [assemble_eq_construct_iff htwo]
        simp [hnil, hfull]

/-- The check on a pipeline and its constructor apply the same rules. Hence a line comes to a command or has a fault
    of its own, and words are refused by a constructor in one case only: the leftmost group that is no stage lacks
    a name and nothing else, and no group is empty beside others. -/
theorem constructors_refuse_empty_names_only :
    (∀ stages : List Stage, 2 ≤ stages.length →
      (misplaced stages = none ↔ ∃ p, Pipeline.ofStages stages = .ok p)) ∧
    (∀ line, (∃ c, parse line = .ok c) ∨ (∃ e, parse line = .error (.lex e)) ∨ ∃ e, parse line = .error (.build e)) ∧
    ∀ words e, build words = .error (.construct e) ↔
      words ≠ [] ∧ (2 ≤ (groupsOf words).length → [] ∉ groupsOf words) ∧
        (∃ before group behind, groupsOf words = before ++ group :: behind ∧
          (∀ earlier ∈ before, ∃ s, parseStage earlier = .ok s) ∧ NamelessStage group) ∧
        e = .emptyExecutable ∧ e.message = "Command executable must not be empty." := by
  refine ⟨fun stages htwo => misplaced_eq_none_iff_ofStages htwo, ?_, ?_⟩
  · intro line
    cases h : parse line with
    | ok c => exact .inl ⟨c, rfl⟩
    | error e =>
      cases e with
      | lex e => exact .inr (.inl ⟨e, rfl⟩)
      | build e => exact .inr (.inr ⟨e, rfl⟩)
      | construct e => exact absurd h (parse_ne_construct line e)
  · intro words e
    rw [build_eq_construct_iff, mapM_eq_error_iff]
    simp only [parseStage_eq_construct_iff]
    constructor
    · rintro ⟨hne, hfull, before, group, behind, hsplit, hbefore, hnameless, rfl⟩
      exact ⟨hne, hfull, ⟨before, group, behind, hsplit, hbefore, hnameless⟩, rfl, rfl⟩
    · rintro ⟨hne, hfull, ⟨before, group, behind, hsplit, hbefore, hnameless⟩, rfl, -⟩
      exact ⟨hne, hfull, before, group, behind, hsplit, hbefore, hnameless, rfl⟩

/-- A reader and a writer in both orders, and a group without a name between a stage and a worse group. -/
theorem constructors_refuse_empty_names_only_in_the_middle :
    let reader : Stage := ⟨"sort", [], some { stdin := some "in" }, by decide⟩
    let writer : Stage := ⟨"uniq", [], some { stdout := some "out", append := true }, by decide⟩
    (2 ≤ [reader, writer].length ∧ ∃ p, Pipeline.ofStages [reader, writer] = .ok p) ∧
      (misplaced [writer, reader] = some (.misplaced .append .last) ∧
        ¬ ∃ p, Pipeline.ofStages [writer, reader] = .ok p) ∧
      build ["a", "|", "", "b", ">", "c", "|", ">"] = .error (.construct .emptyExecutable) := by
  intro reader writer
  obtain ⟨hcheck, -, hbuild⟩ := constructors_refuse_empty_names_only
  have hpassed : misplaced [reader, writer] = none := by decide
  have hrefused : misplaced [writer, reader] = some (.misplaced .append .last) := by decide
  refine ⟨⟨by decide, (hcheck [reader, writer] (by decide)).1 hpassed⟩, ⟨hrefused, ?_⟩, ?_⟩
  · intro hbuilt
    have hnone := (hcheck [writer, reader] (by decide)).2 hbuilt
    rw [hrefused] at hnone
    cases hnone
  · have hnameless : NamelessStage ["", "b", ">", "c"] :=
      ⟨[.arg "b", .redirect .output "c"], by simp [Item.Readable, IsWord, Operator.ofText?], rfl⟩
    refine (hbuild _ _).2 ⟨by decide, by decide, ⟨[["a"]], _, [[">"]], by decide, ?_, hnameless⟩, rfl, rfl⟩
    intro earlier hmem
    rw [List.mem_singleton.1 hmem]
    exact ⟨⟨"a", [], none, by decide⟩, by decide⟩

-- an operator without a file name is found before the name is missed
example : build ["", ">"] = .error (.build (.danglingRedirection .output)) := by decide

end Conch
