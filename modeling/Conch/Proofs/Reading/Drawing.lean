-- SUMMARY: The tree of a command that was read from a line determines it, if names hold no spaces and no line ends.
import Conch.Command.Tree
import Conch.Proofs.Reading.RoundTrip
import Conch.Proofs.Text.Quoting

/-!
# Reading trees

The line of a stage is its executable up to the first space, then its kind, then in
brackets a row of details, each with its own label. Arguments are quoted, so they show
where they end whatever they hold. A file name has no space, so it ends at one or at the
bracket that ends the line. Neither of them holds a line end, so the lines of a tree are
the lines of its stages, with one in front that counts them if there are several.
-/

namespace Conch

/-! ## Names -/

/-- A name that holds neither a space nor a line end. -/
def IsUnbroken (name : String) : Prop :=
  ' ' ∉ name.toList ∧ '\n' ∉ name.toList

instance (name : String) : Decidable (IsUnbroken name) :=
  inferInstanceAs (Decidable (_ ∧ _))

/-- The names in a stage: what it runs, and its files. -/
def Stage.names (s : Stage) : List String :=
  s.executable :: (s.stdin?.toList ++ s.stdout?.toList ++ s.stderr?.toList)

/-- All names in a stage are unbroken. -/
def Stage.IsUnbroken (s : Stage) : Prop :=
  ∀ name ∈ s.names, Conch.IsUnbroken name

instance (s : Stage) : Decidable s.IsUnbroken :=
  inferInstanceAs (Decidable (∀ name ∈ s.names, Conch.IsUnbroken name))

/-- All names in a command are unbroken. -/
def Command.IsUnbroken (c : Command) : Prop :=
  ∀ s ∈ c.stages, s.IsUnbroken

instance (c : Command) : Decidable c.IsUnbroken :=
  inferInstanceAs (Decidable (∀ s ∈ c.stages, s.IsUnbroken))

/-- What may stand behind a detail: the end of the line, or a space and more. -/
def EndsDetail (x : List Char) : Prop :=
  x = [']'] ∨ ∃ rest, x = ' ' :: rest

/-- A name ends at the first space. -/
theorem append_space_inj {f g x y : List Char} (hf : ' ' ∉ f) (hg : ' ' ∉ g) (h : f ++ ' ' :: x = g ++ ' ' :: y) :
    f = g ∧ x = y := by
  have htake : ∀ f x : List Char, ' ' ∉ f → (f ++ ' ' :: x).takeWhile (· ≠ ' ') = f := by
    intro f x hf
    have hall : ∀ c ∈ f, decide (c ≠ ' ') = true := fun c hc => decide_eq_true fun hspace => hf (hspace ▸ hc)
    rw [List.takeWhile_append_of_pos hall]
    simp
  obtain rfl : f = g := by rw [← htake f x hf, h, htake g y hg]
  exact ⟨rfl, (List.cons.inj (List.append_cancel_left h)).2⟩

/-- A name ends where its detail does. -/
theorem append_endsDetail_inj {f g x y : List Char} (hf : ' ' ∉ f) (hg : ' ' ∉ g) (hx : EndsDetail x)
    (hy : EndsDetail y) (h : f ++ x = g ++ y) : f = g ∧ x = y := by
  have hspace : ∀ f x y : List Char, ' ' ∉ f → f ++ [']'] ≠ y ++ ' ' :: x := by
    intro f x y hf heq
    have hmem : ' ' ∈ f ++ [']'] := by simp [heq]
    simp [hf] at hmem
  rcases hx with rfl | ⟨x, rfl⟩
  · rcases hy with rfl | ⟨y, rfl⟩
    · exact ⟨List.append_cancel_right h, rfl⟩
    · exact absurd h (hspace f y g hf)
  · rcases hy with rfl | ⟨y, rfl⟩
    · exact absurd h.symm (hspace g x f hg)
    · obtain ⟨rfl, rfl⟩ := append_space_inj hf hg h
      exact ⟨rfl, rfl⟩

/-! ## Details -/

/-- One thing that stands in the brackets of a stage's line. -/
inductive Detail where
  | args (texts : List String)
  | stdin (file : String)
  | stdout (file : String) (append : Bool)
  | stderr (file : String)

namespace Detail

/-- How the mode of an output file is shown. -/
def modeText (append : Bool) : List Char :=
  ' ' :: '(' :: ((if append then ['a', 'p', 'p', 'e', 'n', 'd'] else ['t', 'r', 'u', 'n', 'c', 'a', 't', 'e']) ++ [')'])

/-- The label of a detail. -/
def label : Detail → List Char
  | args _ => ['a', 'r', 'g', 's', '=']
  | stdin _ => ['s', 't', 'd', 'i', 'n', '=']
  | stdout _ _ => ['s', 't', 'd', 'o', 'u', 't', '=']
  | stderr _ => ['s', 't', 'd', 'e', 'r', 'r', '=']

/-- What a detail says behind its label. -/
def content : Detail → List Char
  | args texts => (quotedList texts).toList
  | stdin file | stderr file => file.toList
  | stdout file append => file.toList ++ modeText append

/-- How a detail stands in its line. -/
def text (d : Detail) : List Char :=
  d.label ++ d.content

/-- The file that a detail names, if it names one. -/
def file? : Detail → Option String
  | args _ => none
  | stdin file | stdout file _ | stderr file => some file

variable {d d' : Detail} {x y : List Char}

theorem modeText_inj {append append' : Bool} (h : modeText append ++ x = modeText append' ++ y) :
    append = append' ∧ x = y := by
  cases append <;> cases append' <;> simp [modeText] at h <;> exact ⟨rfl, h⟩

theorem modeText_endsDetail (append : Bool) : EndsDetail (modeText append ++ x) :=
  .inr ⟨_, rfl⟩

/-- A detail shows by its label what it is, and then where it ends. -/
theorem text_inj (hd : ∀ file ∈ d.file?, IsUnbroken file) (hd' : ∀ file ∈ d'.file?, IsUnbroken file)
    (hx : EndsDetail x) (hy : EndsDetail y) (h : d.text ++ x = d'.text ++ y) : d = d' ∧ x = y := by
  rw [text, text, List.append_assoc, List.append_assoc] at h
  cases d with
  | args texts =>
    cases d' with
    | args texts' =>
      replace h : (quotedList texts).toList ++ x = (quotedList texts').toList ++ y := List.append_cancel_left h
      obtain ⟨rfl, rfl⟩ := quotedList_selfDelimiting h
      exact ⟨rfl, rfl⟩
    | _ => simp [label] at h
  | stdin file =>
    cases d' with
    | stdin file' =>
      obtain ⟨hfile, rfl⟩ := append_endsDetail_inj (hd _ rfl).1 (hd' _ rfl).1 hx hy (List.append_cancel_left h)
      exact ⟨congrArg stdin (String.toList_inj.1 hfile), rfl⟩
    | _ => simp [label] at h
  | stdout file append =>
    cases d' with
    | stdout file' append' =>
      replace h : file.toList ++ (modeText append ++ x) = file'.toList ++ (modeText append' ++ y) := by
        simpa [label, content] using h
      obtain ⟨hfile, hrest⟩ := append_endsDetail_inj (hd _ rfl).1 (hd' _ rfl).1 (modeText_endsDetail append)
        (modeText_endsDetail append') h
      obtain ⟨rfl, rfl⟩ := modeText_inj hrest
      exact ⟨congrArg (stdout · append) (String.toList_inj.1 hfile), rfl⟩
    | _ => simp [label] at h
  | stderr file =>
    cases d' with
    | stderr file' =>
      obtain ⟨hfile, rfl⟩ := append_endsDetail_inj (hd _ rfl).1 (hd' _ rfl).1 hx hy (List.append_cancel_left h)
      exact ⟨congrArg stderr (String.toList_inj.1 hfile), rfl⟩
    | _ => simp [label] at h

theorem newline_notMem_text (hd : ∀ file ∈ d.file?, IsUnbroken file) : '\n' ∉ d.text := by
  cases d with
  | args texts => simp [text, label, content, newline_notMem_quotedList]
  | stdin file => simp [text, label, content, (hd file rfl).2]
  | stdout file append => cases append <;> simp [text, label, content, modeText, (hd file rfl).2]
  | stderr file => simp [text, label, content, (hd file rfl).2]

/-- What stands behind a detail: more of them, and the bracket. -/
def behind (ds : List Detail) : List Char :=
  ds.flatMap (fun d => [' ', '|', ' '] ++ d.text) ++ [']']

theorem behind_endsDetail (ds : List Detail) : EndsDetail (behind ds) := by
  cases ds with
  | nil => exact .inl rfl
  | cons d ds => exact .inr ⟨_, rfl⟩

/-- Details in their brackets. Without any there are no brackets. -/
def bracketed : List Detail → List Char
  | [] => []
  | d :: ds => ' ' :: '[' :: (d.text ++ behind ds)

/-- The names in some details are unbroken. -/
def AllUnbroken (ds : List Detail) : Prop :=
  ∀ d ∈ ds, ∀ file ∈ d.file?, IsUnbroken file

theorem behind_inj {ds ds' : List Detail} (hall : AllUnbroken ds) (hall' : AllUnbroken ds')
    (h : behind ds = behind ds') : ds = ds' := by
  induction ds generalizing ds' with
  | nil =>
    cases ds' with
    | nil => rfl
    | cons d' ds' => simp [behind] at h
  | cons d ds ih =>
    cases ds' with
    | nil => simp [behind] at h
    | cons d' ds' =>
      obtain ⟨hd, hds⟩ := List.forall_mem_cons.1 hall
      obtain ⟨hd', hds'⟩ := List.forall_mem_cons.1 hall'
      replace h : d.text ++ behind ds = d'.text ++ behind ds' := by simpa [behind] using h
      obtain ⟨rfl, hrest⟩ := text_inj hd hd' (behind_endsDetail ds) (behind_endsDetail ds') h
      exact congrArg (d :: ·) (ih hds hds' hrest)

theorem bracketed_inj {ds ds' : List Detail} (hall : AllUnbroken ds) (hall' : AllUnbroken ds')
    (h : bracketed ds = bracketed ds') : ds = ds' := by
  cases ds with
  | nil =>
    cases ds' with
    | nil => rfl
    | cons d' ds' => simp [bracketed] at h
  | cons d ds =>
    cases ds' with
    | nil => simp [bracketed] at h
    | cons d' ds' =>
      -- The same as between details, with a bracket in front.
      refine behind_inj hall hall' ?_
      simpa [bracketed, behind] using h

theorem newline_notMem_bracketed {ds : List Detail} (hall : AllUnbroken ds) : '\n' ∉ bracketed ds := by
  cases ds with
  | nil => exact List.not_mem_nil
  | cons d ds =>
    obtain ⟨hd, hds⟩ := List.forall_mem_cons.1 hall
    have hbehind : ∀ d ∈ ds, '\n' ∉ d.text := fun d hd => newline_notMem_text (hds d hd)
    simpa [bracketed, behind, newline_notMem_text hd] using hbehind

end Detail

/-! ## The line of a stage -/

/-- The details of redirections. -/
def Redirects.parts (r : Redirects) : List Detail :=
  r.stdin.toList.map .stdin ++ r.stdout.toList.map (.stdout · r.append) ++ r.stderr.toList.map .stderr

/-- The details of a stage. -/
def Stage.parts (s : Stage) : List Detail :=
  (if s.args.isEmpty then [] else [.args s.args]) ++ (s.redirects.map Redirects.parts).getD []

theorem Redirects.details_eq (r : Redirects) : r.details.map String.toList = r.parts.map Detail.text := by
  have hstdin : ∀ file, s!"stdin={file}".toList = (Detail.stdin file).text := by
    simp [Detail.text, Detail.label, Detail.content, toString]
  have hstderr : ∀ file, s!"stderr={file}".toList = (Detail.stderr file).text := by
    simp [Detail.text, Detail.label, Detail.content, toString]
  have hmode : Detail.modeText r.append =
      ' ' :: '(' :: ((if r.append then "append" else "truncate").toList ++ [')']) := by
    cases r.append <;> simp [Detail.modeText]
  have hstdout : ∀ (file mode : String), Detail.modeText r.append = ' ' :: '(' :: (mode.toList ++ [')']) →
      s!"stdout={file} ({mode})".toList = (Detail.stdout file r.append).text := by
    intro file mode h
    simp [Detail.text, Detail.label, Detail.content, h, toString]
  simp [details, parts, hstdin, hstderr, fun file => hstdout file _ hmode, Function.comp_def]

theorem Stage.details_eq (s : Stage) : s.details.map String.toList = s.parts.map Detail.text := by
  have hargs : ("args=" ++ quotedList s.args).toList = (Detail.args s.args).text := by
    simp [Detail.text, Detail.label, Detail.content]
  cases hredirects : s.redirects with
  | none => by_cases hempty : s.args.isEmpty <;> simp [details, parts, hredirects, hempty, hargs]
  | some r =>
    by_cases hempty : s.args.isEmpty <;> simp [details, parts, hredirects, hempty, hargs, r.details_eq]

/-- A stage's line: the executable, a space, the kind, and the details. -/
theorem Stage.toList_summary (s : Stage) : s.summary.toList =
    s.executable.toList ++ ' ' :: '(' :: (s.kindName.toList ++ ')' :: Detail.bracketed s.parts) := by
  have hdetails := s.details_eq
  cases hparts : s.parts with
  | nil =>
    have hnone : s.details = [] := by simpa [hparts] using hdetails
    simp [summary, hnone, Detail.bracketed, toString]
  | cons d ds =>
    have hsome : s.details.isEmpty = false := by
      rw [List.isEmpty_eq_false_iff]
      rintro hnone
      simp [hnone, hparts] at hdetails
    simp [summary, hsome, hdetails, hparts, intercalate_cons_eq_flatMap, Detail.bracketed, Detail.behind,
      List.flatMap_map, toString]

/-! ## What the details tell -/

/-- Without an output file there is no mode to tell. -/
theorem Redirects.IsCanonical.eq_of_fields {r r' : Redirects} (hr : r.IsCanonical) (hr' : r'.IsCanonical)
    (hin : r.stdin = r'.stdin)
    (hout : (r.stdout.map fun file => (file, r.append)) = r'.stdout.map fun file => (file, r'.append))
    (herr : r.stderr = r'.stderr) : r = r' := by
  have hmode : ∀ r : Redirects, r.IsCanonical → r.stdout = none → r.append = false := by
    intro r hr hnone
    cases happend : r.append with
    | false => rfl
    | true => simpa [hnone] using hr.append_output happend
  have houtput : r.stdout = r'.stdout ∧ r.append = r'.append := by
    cases hfile : r.stdout with
    | none =>
      have hfile' : r'.stdout = none := by simpa [hfile] using hout.symm
      exact ⟨hfile'.symm, (hmode r hr hfile).trans (hmode r' hr' hfile').symm⟩
    | some file =>
      rw [hfile] at hout
      obtain ⟨file', hfile', hboth⟩ := Option.map_eq_some_iff.1 hout.symm
      obtain ⟨rfl, happend⟩ := Prod.mk.inj hboth
      exact ⟨hfile'.symm, happend.symm⟩
  obtain ⟨stdin, stdout, stderr, append⟩ := r
  obtain ⟨stdin', stdout', stderr', append'⟩ := r'
  obtain ⟨rfl, rfl⟩ := houtput
  obtain rfl : stdin = stdin' := hin
  obtain rfl : stderr = stderr' := herr
  rfl

namespace Detail

/-- The arguments that a detail shows. -/
def args? : Detail → List String
  | args texts => texts
  | _ => []

/-- The input file that a detail shows. -/
def stdin? : Detail → Option String
  | stdin file => some file
  | _ => none

/-- The output file that a detail shows, and its mode. -/
def stdout? : Detail → Option (String × Bool)
  | stdout file append => some (file, append)
  | _ => none

/-- The file for diagnostics that a detail shows. -/
def stderr? : Detail → Option String
  | stderr file => some file
  | _ => none

end Detail

namespace Redirects

variable (r : Redirects)

theorem filterMap_stdin? : r.parts.filterMap Detail.stdin? = r.stdin.toList := by
  simp [parts, Detail.stdin?, Function.comp_def]

theorem filterMap_stdout? : r.parts.filterMap Detail.stdout? = (r.stdout.map fun file => (file, r.append)).toList := by
  cases hout : r.stdout <;> simp [parts, Detail.stdout?, Function.comp_def, hout]

theorem filterMap_stderr? : r.parts.filterMap Detail.stderr? = r.stderr.toList := by
  simp [parts, Detail.stderr?, Function.comp_def]

end Redirects

namespace Stage

variable {s t : Stage}

theorem args_eq (s : Stage) : s.args = s.parts.flatMap Detail.args? := by
  have hfiles : ∀ r : Redirects, r.parts.flatMap Detail.args? = [] := by
    intro r
    simp [Redirects.parts, Detail.args?]
  have hown : (if s.args.isEmpty then [] else [Detail.args s.args]).flatMap Detail.args? = s.args := by
    cases s.args <;> simp [Detail.args?]
  rw [parts, List.flatMap_append, hown]
  cases s.redirects <;> simp [hfiles]

/-- The arguments tell nothing of the files. -/
theorem filterMap_parts {β : Type} {f : Detail → Option β} {g : Redirects → Option β}
    (hargs : ∀ texts, f (.args texts) = none) (hfiles : ∀ r : Redirects, r.parts.filterMap f = (g r).toList)
    (s : Stage) : s.parts.filterMap f = (s.redirects.bind g).toList := by
  have hown : (if s.args.isEmpty then [] else [Detail.args s.args]).filterMap f = [] := by
    split <;> simp [hargs]
  rw [parts, List.filterMap_append, hown, List.nil_append]
  cases s.redirects with
  | none => rfl
  | some r => exact hfiles r

/-- What the details show of the files is the same for stages with the same details. -/
theorem redirects_eq_of_parts {β : Type} {f : Detail → Option β} {g : Redirects → Option β}
    (hargs : ∀ texts, f (.args texts) = none) (hfiles : ∀ r : Redirects, r.parts.filterMap f = (g r).toList)
    (h : s.parts = t.parts) : s.redirects.bind g = t.redirects.bind g := by
  have hshown : (s.redirects.bind g).toList = (t.redirects.bind g).toList := by
    rw [← filterMap_parts hargs hfiles, ← filterMap_parts hargs hfiles, h]
  cases hs : s.redirects.bind g <;> cases ht : t.redirects.bind g <;> simp_all

/-- The files that the details show are names of the stage. -/
theorem IsUnbroken.parts (h : s.IsUnbroken) : Detail.AllUnbroken s.parts := by
  intro d hd file hfile
  refine h file (List.mem_cons_of_mem _ ?_)
  rw [Stage.parts, List.mem_append] at hd
  rcases hd with hargs | hredirects
  · split at hargs
    · cases hargs
    · obtain rfl := List.mem_singleton.1 hargs
      cases hfile
  · cases hr : s.redirects with
    | none => simp [hr] at hredirects
    | some r =>
      simp only [hr, Option.map_some, Option.getD_some, Redirects.parts, List.mem_append, List.mem_map,
        Option.mem_toList] at hredirects
      simp only [stdin?, stdout?, stderr?, hr, Option.bind_some, List.mem_append, Option.mem_toList]
      rcases hredirects with (⟨f, hf, rfl⟩ | ⟨f, hf, rfl⟩) | ⟨f, hf, rfl⟩
      · exact .inl (.inl (Option.some.inj hfile ▸ hf))
      · exact .inl (.inr (Option.some.inj hfile ▸ hf))
      · exact .inr (Option.some.inj hfile ▸ hf)

theorem kindName_inj {x y : List Char} (h : s.kindName.toList ++ ')' :: x = t.kindName.toList ++ ')' :: y) :
    s.redirects.isSome = t.redirects.isSome ∧ x = y := by
  unfold kindName at h
  cases hs : s.redirects.isSome <;> cases ht : t.redirects.isSome <;> simp [hs, ht] at h
  · exact ⟨rfl, h⟩
  · exact ⟨rfl, h⟩

/-- The line of a stage determines it. -/
theorem eq_of_summary (hs : s.IsCanonical) (ht : t.IsCanonical) (hsnames : s.IsUnbroken) (htnames : t.IsUnbroken)
    (h : s.summary = t.summary) : s = t := by
  have hline := congrArg String.toList h
  rw [s.toList_summary, t.toList_summary] at hline
  have hspace : ∀ s : Stage, s.IsUnbroken → ' ' ∉ s.executable.toList := fun s hs => (hs _ List.mem_cons_self).1
  obtain ⟨hexecutable, hrest⟩ := append_space_inj (hspace s hsnames) (hspace t htnames) hline
  obtain ⟨hsome, hbrackets⟩ := kindName_inj (List.cons.inj hrest).2
  have hparts := Detail.bracketed_inj hsnames.parts htnames.parts hbrackets
  have hargs : s.args = t.args := by rw [s.args_eq, t.args_eq, hparts]
  have hredirects : s.redirects = t.redirects := by
    have hin := redirects_eq_of_parts (fun _ => rfl) Redirects.filterMap_stdin? hparts
    have hout := redirects_eq_of_parts (fun _ => rfl) Redirects.filterMap_stdout? hparts
    have herr := redirects_eq_of_parts (fun _ => rfl) Redirects.filterMap_stderr? hparts
    cases hr : s.redirects with
    | none =>
      rw [hr] at hsome
      exact (Option.isSome_eq_false_iff.1 hsome.symm |> Option.isNone_iff_eq_none.1).symm
    | some r =>
      rw [hr] at hsome
      obtain ⟨r', hr'⟩ := Option.isSome_iff_exists.1 hsome.symm
      rw [hr, hr'] at hin hout herr
      rw [hr', (hs.redirects r hr).eq_of_fields (ht.redirects r' hr') hin hout herr]
  obtain ⟨executable, args, redirects, hexecutableOk⟩ := s
  obtain ⟨executable', args', redirects', hexecutableOk'⟩ := t
  obtain rfl := String.toList_inj.1 hexecutable
  obtain rfl : args = args' := hargs
  obtain rfl : redirects = redirects' := hredirects
  rfl

theorem IsUnbroken.newline_notMem_summary (h : s.IsUnbroken) : '\n' ∉ s.summary.toList := by
  have hexecutable : '\n' ∉ s.executable.toList := (h _ List.mem_cons_self).2
  have hkind : '\n' ∉ s.kindName.toList := by
    unfold kindName
    split <;> decide +kernel
  simp [s.toList_summary, hexecutable, hkind, Detail.newline_notMem_bracketed h.parts]

end Stage

/-! ## The lines of a tree -/

namespace Command

variable {c c' : Command}

theorem treeLines_ne_nil (c : Command) : c.treeLines ≠ [] := by
  cases c with
  | stage s => exact List.cons_ne_nil _ _
  | pipeline p => exact List.cons_ne_nil _ _

theorem newline_notMem_treeLines (h : c.IsUnbroken) : ∀ l ∈ c.treeLines.map String.toList, '\n' ∉ l := by
  cases c with
  | stage s => simpa [treeLines] using (h s List.mem_cons_self).newline_notMem_summary
  | pipeline p =>
    have hcount : '\n' ∉ (toString p.stages.length).toList := by
      rw [Nat.toString_eq_ofList_toDigits, String.toList_ofList]
      exact fun hmem => absurd (Nat.isDigit_of_mem_toDigits (by decide) (by decide) hmem) (by decide)
    have hstages : ∀ s ∈ p.stages, '\n' ∉ s.summary.toList := fun s hs => (h s hs).newline_notMem_summary
    intro l hl
    obtain ⟨line, hline, rfl⟩ := List.mem_map.1 hl
    rcases List.mem_cons.1 hline with rfl | hstage
    · simpa [toString] using hcount
    · obtain ⟨s, hs, rfl⟩ := List.mem_map.1 hstage
      simpa using hstages s hs

/-- The lines of a tree are found again between its line ends. -/
theorem splitOn_tree (h : c.IsUnbroken) : c.tree.toList.splitOn '\n' = c.treeLines.map String.toList := by
  have hjoined : c.tree.toList = ['\n'].intercalate (c.treeLines.map String.toList) := by
    simp [tree, String.toList_intercalate]
  rw [hjoined]
  exact List.splitOn_intercalate '\n' (newline_notMem_treeLines h) (by simp [c.treeLines_ne_nil])

theorem treeLines_eq_of_tree (h : c.IsUnbroken) (h' : c'.IsUnbroken) (htree : c.tree = c'.tree) :
    c.treeLines = c'.treeLines := by
  have hlines : c.treeLines.map String.toList = c'.treeLines.map String.toList := by
    rw [← splitOn_tree h, ← splitOn_tree h', htree]
  exact List.map_injective_iff.2 (fun _ _ => String.toList_inj.1) hlines

/-- Stages with the same lines are the same stages. -/
theorem stages_eq_of_summaries {stages stages' : List Stage} (h : ∀ s ∈ stages, s.IsCanonical ∧ s.IsUnbroken)
    (h' : ∀ s ∈ stages', s.IsCanonical ∧ s.IsUnbroken)
    (hlines : (stages.map fun s => "  " ++ s.summary) = stages'.map fun s => "  " ++ s.summary) :
    stages = stages' := by
  induction stages generalizing stages' with
  | nil => exact (List.map_eq_nil_iff.1 hlines.symm).symm
  | cons s stages ih =>
    cases stages' with
    | nil => cases hlines
    | cons s' stages' =>
      obtain ⟨hs, hstages⟩ := List.forall_mem_cons.1 h
      obtain ⟨hs', hstages'⟩ := List.forall_mem_cons.1 h'
      obtain ⟨hline, hrest⟩ := List.cons.inj hlines
      obtain rfl : s = s' := Stage.eq_of_summary hs.1 hs'.1 hs.2 hs'.2 ((String.append_right_inj _).1 hline)
      exact congrArg (s :: ·) (ih hstages hstages' hrest)

/-- The lines of a tree determine the command. Their number tells whether it is a pipeline. -/
theorem eq_of_treeLines (hc : c.IsCanonical) (hc' : c'.IsCanonical) (h : c.IsUnbroken) (h' : c'.IsUnbroken)
    (hlines : c.treeLines = c'.treeLines) : c = c' := by
  have hlength := congrArg List.length hlines
  cases c with
  | stage s =>
    cases c' with
    | stage s' =>
      have hs : s = s' := Stage.eq_of_summary (hc s List.mem_cons_self) (hc' s' List.mem_cons_self)
        (h s List.mem_cons_self) (h' s' List.mem_cons_self) (List.cons.inj hlines).1
      rw [hs]
    | pipeline p' =>
      have hseveral := p'.two_le
      simp only [treeLines, List.length_cons, List.length_map, List.length_nil] at hlength
      omega
  | pipeline p =>
    cases c' with
    | stage s' =>
      have hseveral := p.two_le
      simp only [treeLines, List.length_cons, List.length_map, List.length_nil] at hlength
      omega
    | pipeline p' =>
      have hstages : p.stages = p'.stages := stages_eq_of_summaries (fun s hs => ⟨hc s hs, h s hs⟩)
        (fun s hs => ⟨hc' s hs, h' s hs⟩) (List.cons.inj hlines).2
      obtain ⟨stages, _, _⟩ := p
      obtain ⟨stages', _, _⟩ := p'
      obtain rfl : stages = stages' := hstages
      rfl

end Command

/-- The tree of a command that was read from a line determines it if its names are unbroken. It has one line for a
    stage, and for a pipeline one more than there are stages. Arguments may be any texts, because a list of them is
    shown on one line that determines it. -/
theorem tree_determines_command :
    (∀ (line line' : String) (c c' : Command), parse line = .ok c → parse line' = .ok c' → c.IsUnbroken →
      c'.IsUnbroken → c.tree = c'.tree → c = c') ∧
    (∀ s : Stage, (Command.stage s).IsUnbroken → ((Command.stage s).tree.toList.splitOn '\n').length = 1) ∧
    (∀ p : Pipeline, (Command.pipeline p).IsUnbroken →
      ((Command.pipeline p).tree.toList.splitOn '\n').length = 1 + p.stages.length) ∧
    Function.Injective quotedList ∧ ∀ texts, '\n' ∉ (quotedList texts).toList := by
  refine ⟨?_, ?_, ?_, quotedList_injective, newline_notMem_quotedList⟩
  · intro line line' c c' hline hline' h h' htree
    exact Command.eq_of_treeLines (Command.isCanonical_of_parse hline) (Command.isCanonical_of_parse hline') h h'
      (Command.treeLines_eq_of_tree h h' htree)
  · intro s h
    rw [Command.splitOn_tree h]
    rfl
  · intro p h
    rw [Command.splitOn_tree h]
    simp [Command.treeLines, Nat.add_comm]

theorem executable_grep : IsExecutableName "grep" := by
  decide

/-- One argument that looks like two of them, and a pipeline. -/
theorem tree_determines_command_of_like_arguments :
    let one : Command := .stage ⟨"grep", ["a', 'b"], some { stderr := some "e]" }, executable_grep⟩
    let two : Command := .stage ⟨"grep", ["a", "b"], some { stderr := some "e]" }, executable_grep⟩
    let both : Pipeline := ⟨[⟨"grep", ["\n"], none, executable_grep⟩, ⟨"grep", [], none, executable_grep⟩],
      by decide, by decide⟩
    parse "grep \"a', 'b\" 2> e]" = .ok one ∧ parse "grep a b 2> e]" = .ok two ∧ one.tree ≠ two.tree ∧
      ((Command.pipeline both).tree.toList.splitOn '\n').length = 3 := by
  intro one two both
  have hone : parse "grep \"a', 'b\" 2> e]" = .ok one := by decide
  have htwo : parse "grep a b 2> e]" = .ok two := by decide
  refine ⟨hone, htwo, ?_, tree_determines_command.2.2.1 both (by decide)⟩
  intro htree
  have hsame : one = two := tree_determines_command.1 _ _ one two hone htwo (by decide) (by decide) htree
  exact absurd hsame (by decide)

/-- The quote mark is the one that an argument does not hold, and line ends are escaped. -/
example : quotedList ["it's", "\"", "a\n\u2028"] = "[\"it's\", '\"', 'a\\n\\u2028']" := by
  decide +kernel

end Conch
