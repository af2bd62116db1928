-- SUMMARY: A canonical command is read back from the line it is written as, and lines give canonical commands only.
import Conch.Proofs.Reading.Pipelines

/-!
# Writing and reading

A written command has each word behind backslashes and each operator bare, so
every word of it spells what it stands for and no pipe in it is active but those
between its stages. Hence reading it gives the command back. In the other
direction, what is read from a line is canonical, whatever the line.
-/

namespace Conch

/-! ## Words as they are written -/

theorem toList_escaped (word : String) :
    (escaped word).toList = word.toList.flatMap fun c => ['\\', c] := by
  rw [escaped, String.toList_ofList]

theorem spells_escaped (word : String) : Spells (escaped word).toList word.toList := by
  rw [toList_escaped]
  exact Spells.escapes word.toList

theorem unparted_escaped (word : String) : Unparted (escaped word).toList := by
  rw [toList_escaped]
  exact Unparted.escapes word.toList

/-- An operator needs no backslashes: none of its characters is a blank or a mark. -/
theorem Operator.spells_text (op : Operator) : Spells op.text.toList op.text.toList := by
  have hless : Spells ['<'] ['<'] := .bare rfl rfl (by decide)
  have hgreater : Spells ['>'] ['>'] := .bare rfl rfl (by decide)
  have htwo : Spells ['2'] ['2'] := .bare rfl rfl (by decide)
  cases op with
  | input => exact hless
  | output => exact hgreater
  | append => exact hgreater.append hgreater
  | errors => exact htwo.append hgreater

theorem Operator.unparted_text (op : Operator) : Unparted op.text.toList := by
  have hless : Unparted ['<'] := .bare rfl (by decide)
  have hgreater : Unparted ['>'] := .bare rfl (by decide)
  have htwo : Unparted ['2'] := .bare rfl (by decide)
  cases op with
  | input => exact hless
  | output => exact hgreater
  | append => exact hgreater.append hgreater
  | errors => exact htwo.append hgreater

/-! ## The items of a stage -/

/-- The item for a redirection, if there is one. -/
def redirectItem (op : Operator) (file : Option String) : List Item :=
  file.toList.map (.redirect op)

/-- The items that redirections are written as. -/
def Redirects.items (r : Redirects) : List Item :=
  redirectItem .input r.stdin ++
    redirectItem (if r.append then .append else .output) r.stdout ++
    redirectItem .errors r.stderr

/-- The items that a stage is written as. -/
def Stage.items (s : Stage) : List Item :=
  s.args.map .arg ++ (s.redirects.map Redirects.items).getD []

theorem redirectItem_readable {op : Operator} {file : Option String} (h : ∀ name ∈ file, IsWord name) :
    ∀ item ∈ redirectItem op file, item.Readable := by
  cases file with
  | none => exact fun _ hmem => absurd hmem List.not_mem_nil
  | some name =>
    intro item hmem
    obtain rfl := List.mem_singleton.1 hmem
    exact h name rfl

/-- A canonical stage is written with items that can be read. -/
theorem Stage.items_readable {s : Stage} (h : s.IsCanonical) : ∀ item ∈ s.items, item.Readable := by
  rw [Stage.items]
  intro item hmem
  rcases List.mem_append.1 hmem with harg | hredirect
  · obtain ⟨word, hword, rfl⟩ := List.mem_map.1 harg
    exact (h.args word hword).2
  · cases hr : s.redirects with
    | none =>
      rw [hr] at hredirect
      exact absurd hredirect List.not_mem_nil
    | some r =>
      rw [hr] at hredirect
      have hcanonical := h.redirects r hr
      rcases List.mem_append.1 hredirect with hfirst | hstderr
      · rcases List.mem_append.1 hfirst with hstdin | hstdout
        · exact redirectItem_readable hcanonical.stdin_word item hstdin
        · exact redirectItem_readable hcanonical.stdout_word item hstdout
      · exact redirectItem_readable hcanonical.stderr_word item hstderr

theorem argsOf_append (found more : List Item) : argsOf (found ++ more) = argsOf found ++ argsOf more :=
  List.filterMap_append

theorem argsOf_redirectItem (op : Operator) (file : Option String) : argsOf (redirectItem op file) = [] := by
  cases file with
  | none => rfl
  | some name => rfl

/-- The arguments of a stage are those of its items. -/
theorem Stage.argsOf_items (s : Stage) : argsOf s.items = s.args := by
  have hargs : ∀ args : List String, argsOf (args.map .arg) = args := by
    intro args
    induction args with
    | nil => rfl
    | cons arg args ih => rw [List.map_cons, argsOf_arg_cons, ih]
  rw [Stage.items, argsOf_append, hargs]
  cases s.redirects with
  | none => exact List.append_nil s.args
  | some r =>
    show s.args ++ argsOf r.items = s.args
    rw [Redirects.items, argsOf_append, argsOf_append]
    simp only [argsOf_redirectItem, List.append_nil]

theorem redirectsOf_args_append (args : List String) (found : List Item) :
    redirectsOf (args.map .arg ++ found) = redirectsOf found := by
  induction args with
  | nil => rfl
  | cons arg args ih => exact ih

/-- Canonical redirections are those of their items. The cases are the streams that are bound; with
    none at all, or with a mode and no output file, they would not be canonical. -/
theorem Redirects.redirectsOf_items {r : Redirects} (h : r.IsCanonical) : redirectsOf r.items = some r := by
  obtain ⟨stdin, stdout, stderr, append⟩ := r
  have hsome := h.some_stream
  have happend := h.append_output
  cases stdin <;> cases stdout <;> cases stderr <;> cases append <;>
    first
      | rfl
      | exact absurd (happend rfl) (by simp)
      | exact absurd hsome (by simp)

/-- The redirections of a canonical stage are those of its items. -/
theorem Stage.redirectsOf_items {s : Stage} (h : s.IsCanonical) : redirectsOf s.items = s.redirects := by
  rw [Stage.items, redirectsOf_args_append]
  cases hr : s.redirects with
  | none => rfl
  | some r => exact Redirects.redirectsOf_items (h.redirects r hr)

/-! ## Stages -/

/-- The words that a stage is read from. -/
def Stage.tokens (s : Stage) : List String :=
  s.executable :: itemWords s.items

/-- A canonical stage is read back from its words. -/
theorem Stage.parseStage_tokens {s : Stage} (h : s.IsCanonical) : parseStage s.tokens = .ok s :=
  parseStage_eq_ok_iff.2
    ⟨s.items, rfl, s.items_readable h, s.argsOf_items.symm, (Stage.redirectsOf_items h).symm⟩

theorem Stage.tokens_ne_nil (s : Stage) : s.tokens ≠ [] :=
  List.cons_ne_nil _ _

/-- No word of a canonical stage is empty. -/
theorem Stage.empty_notMem_tokens {s : Stage} (h : s.IsCanonical) : "" ∉ s.tokens := by
  rw [Stage.tokens, List.mem_cons]
  rintro (hname | hitem)
  · exact s.executable_ok.1 hname.symm
  · obtain ⟨item, hmem, hword⟩ := List.mem_flatMap.1 hitem
    cases item with
    | arg word =>
      obtain rfl := List.mem_singleton.1 hword
      have harg : "" ∈ argsOf s.items := List.mem_filterMap.2 ⟨.arg "", hmem, rfl⟩
      rw [s.argsOf_items] at harg
      exact (h.args "" harg).1 rfl
    | redirect op file =>
      have hfile : IsWord file := s.items_readable h (.redirect op file) hmem
      rcases List.mem_cons.1 hword with hop | hname
      · exact op.text_ne_empty hop.symm
      · exact hfile (List.mem_singleton.1 hname).symm

theorem renderRedirect_spells (op : Operator) (file : Option String) :
    List.Forall₂ (fun p w => Spells p.toList w.toList) (renderRedirect op file)
      (itemWords (redirectItem op file)) := by
  cases file with
  | none => exact .nil
  | some name => exact .cons op.spells_text (.cons (spells_escaped name) .nil)

theorem itemWords_append (found more : List Item) :
    itemWords (found ++ more) = itemWords found ++ itemWords more :=
  List.flatMap_append

theorem Redirects.render_spells (r : Redirects) :
    List.Forall₂ (fun p w => Spells p.toList w.toList) r.render (itemWords r.items) := by
  rw [Redirects.render, Redirects.items, itemWords_append, itemWords_append]
  exact List.rel_append (List.rel_append (renderRedirect_spells _ _) (renderRedirect_spells _ _))
    (renderRedirect_spells _ _)

/-- Each word that a stage is written with spells the word that it is read from. -/
theorem Stage.words_spell (s : Stage) :
    List.Forall₂ (fun p w => Spells p.toList w.toList) s.words s.tokens := by
  have hargs : ∀ args : List String, List.Forall₂ (fun p w => Spells p.toList w.toList)
      (args.map escaped) (itemWords (args.map .arg)) := by
    intro args
    induction args with
    | nil => exact .nil
    | cons arg args ih => exact .cons (spells_escaped arg) ih
  rw [Stage.words, Stage.tokens, Stage.items, itemWords_append]
  refine .cons (spells_escaped s.executable) (List.rel_append (hargs s.args) ?_)
  cases s.redirects with
  | none => exact .nil
  | some r => exact r.render_spells

/-- A canonical stage as text has the words that it is read from. -/
theorem Stage.tokenize_render {s : Stage} (h : s.IsCanonical) : tokenize s.render = .ok s.tokens :=
  tokenize_intercalate s.words_spell (Stage.empty_notMem_tokens h)

theorem renderRedirect_unparted (op : Operator) (file : Option String) :
    ∀ p ∈ renderRedirect op file, Unparted p.toList := by
  cases file with
  | none => exact fun _ hmem => absurd hmem List.not_mem_nil
  | some name =>
    intro p hmem
    rcases List.mem_cons.1 hmem with rfl | hmem
    · exact op.unparted_text
    · rw [List.mem_singleton.1 hmem]
      exact unparted_escaped name

/-- A stage as text has no active pipe. -/
theorem Stage.render_unparted (s : Stage) : Unparted s.render.toList := by
  refine Unparted.intercalate ?_
  intro p hmem
  rw [Stage.words, List.cons_append, List.mem_cons, List.mem_append] at hmem
  rcases hmem with rfl | harg | hredirect
  · exact unparted_escaped s.executable
  · obtain ⟨arg, -, rfl⟩ := List.mem_map.1 harg
    exact unparted_escaped arg
  · cases hr : s.redirects with
    | none =>
      rw [hr] at hredirect
      exact absurd hredirect List.not_mem_nil
    | some r =>
      rw [hr] at hredirect
      rcases List.mem_append.1 hredirect with hfirst | hstderr
      · rcases List.mem_append.1 hfirst with hstdin | hstdout
        · exact renderRedirect_unparted _ _ p hstdin
        · exact renderRedirect_unparted _ _ p hstdout
      · exact renderRedirect_unparted _ _ p hstderr

/-! ## Commands -/

theorem Command.stages_ne_nil (c : Command) : c.stages ≠ [] := by
  cases c with
  | stage s => exact List.cons_ne_nil s []
  | pipeline p =>
    intro hnil
    have htwo : 2 ≤ p.stages.length := p.two_le
    rw [show p.stages = [] from hnil] at htwo
    exact absurd htwo (by decide)

/-- A written command has its stages as segments. -/
theorem Command.segments_render (c : Command) : segments c.render = c.stages.map Stage.render := by
  rw [Command.render]
  refine segments_intercalate ?_ ?_
  · rw [Ne, List.map_eq_nil_iff]
    exact c.stages_ne_nil
  · intro p hmem
    obtain ⟨s, -, rfl⟩ := List.mem_map.1 hmem
    exact s.render_unparted

theorem parse_render_stage {s : Stage} (h : s.IsCanonical) :
    parse (Command.stage s).render = .ok (.stage s) := by
  have hsegments := (Command.stage s).segments_render
  have hsingle : (segments (Command.stage s).render).length = 1 := by
    rw [hsegments]
    rfl
  have hrender : (Command.stage s).render = s.render := String.intercalate_singleton
  rw [parse_of_single hsingle, hrender, Stage.tokenize_render h, Stage.tokens]
  show (parseStage s.tokens).map Command.stage = _
  rw [Stage.parseStage_tokens h]
  rfl

theorem parse_render_pipeline {p : Pipeline} (h : ∀ s ∈ p.stages, s.IsCanonical) :
    parse (Command.pipeline p).render = .ok (.pipeline p) := by
  have hsegments : segments (Command.pipeline p).render = p.stages.map Stage.render :=
    (Command.pipeline p).segments_render
  have hseveral : 2 ≤ (segments (Command.pipeline p).render).length := by
    rw [hsegments, List.length_map]
    exact p.two_le
  have hwords : (p.stages.map Stage.render).mapM segmentWords = .ok (p.stages.map Stage.tokens) := by
    rw [mapM_eq_ok_iff, List.forall₂_map_left_iff, List.forall₂_map_right_iff, List.forall₂_same]
    exact fun s hs => segmentWords_eq_ok_iff.2 ⟨Stage.tokenize_render (h s hs), s.tokens_ne_nil⟩
  have hstages : List.Forall₂ (fun words s => parseStage words = .ok s)
      (p.stages.map Stage.tokens) p.stages := by
    rw [List.forall₂_map_left_iff, List.forall₂_same]
    exact fun s hs => Stage.parseStage_tokens (h s hs)
  rw [parse_of_several hseveral, hsegments, hwords]
  exact assemble_of_pipeline hstages

/-- What is read from a line is canonical. -/
theorem Command.isCanonical_of_parse {line : String} {c : Command} (h : parse line = .ok c) :
    c.IsCanonical := by
  have hlength : (segments line).length = 1 ∨ 2 ≤ (segments line).length := by
    have hpos := List.length_pos_iff.2 (segments_ne_nil line)
    omega
  rcases hlength with hsingle | hseveral
  · rw [parse_of_single hsingle] at h
    split at h
    · cases h
    · cases h
    · rename_i words hne hwords
      cases hstage : parseStage words with
      | error e => rw [hstage] at h; cases h
      | ok s =>
        rw [hstage] at h
        cases h
        intro s' hmem
        rw [List.mem_singleton.1 hmem]
        exact parseStage_isCanonical hstage (empty_notMem_tokenize hwords)
  · rw [parse_of_several hseveral] at h
    cases hgroups : (segments line).mapM segmentWords with
    | error e => rw [hgroups] at h; cases h
    | ok groups =>
      rw [hgroups] at h
      obtain ⟨p, rfl, hstages⟩ := assemble_eq_ok_iff.1 h
      -- each stage comes from the words of a segment, and none of these is empty
      intro s hmem
      obtain ⟨words, hgroup, hstage⟩ := exists_of_forall₂_of_mem hstages hmem
      obtain ⟨segment, -, hsegment⟩ := exists_of_forall₂_of_mem (mapM_eq_ok_iff.1 hgroups) hgroup
      exact parseStage_isCanonical hstage (empty_notMem_tokenize (segmentWords_eq_ok_iff.1 hsegment).1)

/-- Reading undoes writing on canonical commands, and reading gives canonical commands only. -/
theorem parse_undoes_render :
    (∀ c : Command, c.IsCanonical → parse c.render = .ok c) ∧
      ∀ (line : String) (c : Command), parse line = .ok c → c.IsCanonical := by
  constructor
  · intro c h
    cases c with
    | stage s => exact parse_render_stage (h s List.mem_cons_self)
    | pipeline p => exact parse_render_pipeline h
  · intro line c h
    exact Command.isCanonical_of_parse h

/-- Blanks, quotes, backslashes, pipes and NUL in words, and files that are named like operators. -/
theorem parse_undoes_render_of_marked_words :
    let producer : Stage :=
      ⟨"a|b", ["'", " ", "\\", "\"", "|", "\x00"], some { stdin := some "<", stderr := some "2>" }, by decide⟩
    let consumer : Stage := ⟨" ", [], some { stdout := some ">>", append := true }, by decide⟩
    let c : Command := .pipeline ⟨[producer, consumer], by decide, by decide⟩
    let sorted : Command := .stage ⟨"sort", ["-r"], some { stdin := some ">" }, by decide⟩
    c.IsCanonical ∧ parse c.render = .ok c ∧
      parse "sort < b '-'r '' < \\>" = .ok sorted ∧ sorted.IsCanonical := by
  intro producer consumer c sorted
  have hproducer : producer.IsCanonical := by
    refine ⟨?_, ?_⟩
    · simp [producer, IsArgument, IsWord, Operator.ofText?]
    · rintro r ⟨⟩
      exact ⟨.inl rfl, by simp [IsWord], by simp, by simp [IsWord], by simp⟩
  have hconsumer : consumer.IsCanonical := by
    refine ⟨by simp [consumer], ?_⟩
    rintro r ⟨⟩
    exact ⟨.inr (.inl rfl), by simp, by simp [IsWord], by simp, by simp⟩
  have hc : c.IsCanonical := by
    intro s hs
    rcases List.mem_cons.1 hs with rfl | hs
    · exact hproducer
    · rw [List.mem_singleton.1 hs]
      exact hconsumer
  have hsorted : parse "sort < b '-'r '' < \\>" = .ok sorted := by decide
  exact ⟨hc, parse_undoes_render.1 c hc, hsorted, parse_undoes_render.2 _ sorted hsorted⟩

end Conch
