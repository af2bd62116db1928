-- SUMMARY: The lexical normal form of absolute paths, as parts and as text, and what resolving does to a name.
import Conch.Session.Start
import Conch.Proofs.Stage.Phases

/-!
# Paths in normal form

An absolute path is in normal form if each of its parts is a name: not empty, not
a dot, not two dots, and without a slash in it. `Path.NormalText` says the same of
a text, character by character: it begins with one slash or with two, and unless
there is nothing else the rest is names with single slashes between them.

Reading a text as a path drops empty parts and dots and keeps `..`; the normal
form takes care of these. So every name that is resolved against an absolute
directory has a normal path, and a normal path stays what it is.
-/

namespace Conch

namespace Path

/-! ## Parts -/

/-- A part as a text gives it: it is not dropped, and it has no slash in it. -/
def IsPiece (part : String) : Prop :=
  isPart part = true ∧ '/' ∉ part.toList

/-- A part that leads to something below. -/
def IsName (part : String) : Prop :=
  IsPiece part ∧ part ≠ ".."

instance (part : String) : Decidable (IsPiece part) :=
  inferInstanceAs (Decidable (_ ∧ _))

instance (part : String) : Decidable (IsName part) :=
  inferInstanceAs (Decidable (_ ∧ _))

/-- An absolute path with parts as a text gives them. -/
structure Grounded (p : Path) : Prop where
  absolute : p.isAbsolute = true
  pieces : ∀ part ∈ p.parts, IsPiece part

/-- An absolute path without anything to cancel. -/
structure Normal (p : Path) : Prop where
  absolute : p.isAbsolute = true
  names : ∀ part ∈ p.parts, IsName part

/-- A text that is an absolute path in normal form. What follows the slashes at its start is empty
    if it is the root, and else ends in no slash and has only names between its slashes. -/
def NormalText (text : String) : Prop :=
  ∃ slashes rest : List Char, text.toList = slashes ++ rest ∧
    (slashes = ['/'] ∨ slashes = ['/', '/']) ∧ rest.head? ≠ some '/' ∧
    (rest ≠ [] → rest.getLast? ≠ some '/' ∧
      ∀ piece ∈ rest.splitOn '/', piece ≠ [] ∧ piece ≠ ['.'] ∧ piece ≠ ['.', '.'])

theorem Normal.grounded {p : Path} (h : p.Normal) : p.Grounded :=
  ⟨h.absolute, fun part hpart => (h.names part hpart).1⟩

theorem IsName.toList_ne {part : String} (h : IsName part) :
    part.toList ≠ [] ∧ part.toList ≠ ['.'] ∧ part.toList ≠ ['.', '.'] := by
  obtain ⟨⟨hpart, -⟩, hup⟩ := h
  simp only [isPart, decide_not, Bool.and_eq_true, Bool.not_eq_eq_eq_not, Bool.not_true,
    decide_eq_false_iff_not] at hpart
  refine ⟨fun h => hpart.1 ?_, fun h => hpart.2 ?_, fun h => hup ?_⟩
  · exact String.toList_inj.1 h
  · exact String.toList_inj.1 h
  · exact String.toList_inj.1 h

/-! ## Reading and writing -/

theorem pieces_eq_splitOn (cs : List Char) : pieces cs = cs.splitOn '/' := by
  induction cs with
  | nil => rfl
  | cons c cs ih =>
    have hne : cs.splitOn '/' ≠ [] := List.splitOnP_ne_nil _ cs
    have hcons : (c :: cs).splitOn '/' =
        if (c == '/') = true then [] :: cs.splitOn '/' else (cs.splitOn '/').modifyHead (c :: ·) :=
      List.splitOnP_cons_eq_if_modifyHead c cs
    rw [pieces, ih, hcons]
    by_cases hc : c = '/'
    · simp [hc]
    · cases hrest : cs.splitOn '/' with
      | nil => exact absurd hrest hne
      | cons piece rest => simp [hc]

theorem slash_notMem_of_mem_pieces {cs piece : List Char} (h : piece ∈ pieces cs) : '/' ∉ piece := by
  induction cs generalizing piece with
  | nil => simp_all [pieces]
  | cons c cs ih =>
    rw [pieces] at h
    split at h
    · rcases List.mem_cons.1 h with rfl | hrest
      · simp
      · exact ih hrest
    · rename_i hc
      split at h
      · obtain rfl := List.mem_singleton.1 h
        simpa using Ne.symm hc
      · rename_i first rest hpieces
        rcases List.mem_cons.1 h with rfl | hrest
        · have hfirst : '/' ∉ first := ih (by simp [hpieces])
          simp [Ne.symm hc, hfirst]
        · exact ih (by simp [hpieces, hrest])

theorem ofString_pieces (text : String) : ∀ part ∈ (ofString text).parts, IsPiece part := by
  intro part hpart
  obtain ⟨hmem, hpart⟩ := List.mem_filter.1 hpart
  obtain ⟨piece, hpiece, rfl⟩ := List.mem_map.1 hmem
  refine ⟨hpart, ?_⟩
  rw [String.toList_ofList]
  exact slash_notMem_of_mem_pieces hpiece

/-- The text of an absolute path, character by character. -/
theorem toList_toString {p : Path} (h : p.isAbsolute = true) :
    p.toString.toList = p.anchor.text.toList ++ ['/'].intercalate (p.parts.map String.toList) := by
  have hanchor : ¬ (p.anchor = .relative ∧ p.parts = []) := by
    intro hrelative
    simp [isAbsolute, hrelative.1] at h
  simp [toString, hanchor, String.toList_intercalate]

/-- Behind its slashes, a text of names starts and ends with no slash. -/
theorem intercalate_ends {parts : List String} (h : ∀ part ∈ parts, IsName part) :
    (['/'].intercalate (parts.map String.toList)).head? ≠ some '/' ∧
    (['/'].intercalate (parts.map String.toList)).getLast? ≠ some '/' := by
  induction parts with
  | nil => simp
  | cons part parts ih =>
    have hpart := h part (by simp)
    have hslash := hpart.1.2
    have hne := hpart.toList_ne.1
    have hhead : part.toList.head? ≠ some '/' := fun hhead => hslash (List.mem_of_mem_head? hhead)
    have hlast : part.toList.getLast? ≠ some '/' := fun hlast => hslash (List.mem_of_mem_getLast? hlast)
    cases parts with
    | nil => simp [hhead, hlast]
    | cons next parts =>
      obtain ⟨-, ih⟩ := ih fun part hpart => h part (by simp [hpart])
      have hrest : ['/'].intercalate ((next :: parts).map String.toList) ≠ [] := by
        have hnext := (h next (by simp)).toList_ne.1
        cases parts <;> simp [List.intercalate_cons_cons, hnext]
      rw [List.map_cons, List.map_cons, List.intercalate_cons_cons, ← List.map_cons]
      refine ⟨?_, ?_⟩
      · obtain ⟨c, cs, hcs⟩ := List.exists_cons_of_ne_nil hne
        simp_all
      · obtain ⟨c, cs, hcs⟩ := List.exists_cons_of_ne_nil hrest
        rw [hcs] at ih ⊢
        simpa using ih

theorem splitOn_intercalate {parts : List String} (h : ∀ part ∈ parts, IsName part) (hne : parts ≠ []) :
    (['/'].intercalate (parts.map String.toList)).splitOn '/' = parts.map String.toList := by
  refine List.splitOn_intercalate '/' ?_ (by simpa using hne)
  intro l hl
  obtain ⟨part, hpart, rfl⟩ := List.mem_map.1 hl
  exact (h part hpart).1.2

theorem Anchor.text_cases {a : Anchor} (h : a ≠ .relative) :
    a = .root ∧ a.text.toList = ['/'] ∨ a = .doubleRoot ∧ a.text.toList = ['/', '/'] := by
  cases a with
  | relative => exact absurd rfl h
  | root => exact .inl ⟨rfl, rfl⟩
  | doubleRoot => exact .inr ⟨rfl, rfl⟩

/-- A normal path has a normal text. -/
theorem Normal.text {p : Path} (h : p.Normal) : NormalText p.toString := by
  obtain ⟨hhead, hlast⟩ := intercalate_ends h.names
  refine ⟨p.anchor.text.toList, _, toList_toString h.absolute, ?_, hhead, fun hrest => ⟨hlast, ?_⟩⟩
  · have hanchor : p.anchor ≠ .relative := by simpa [isAbsolute] using h.absolute
    exact (Anchor.text_cases hanchor).imp And.right And.right
  · have hparts : p.parts ≠ [] := by
      intro hnone
      simp [hnone] at hrest
    intro piece hpiece
    rw [splitOn_intercalate h.names hparts] at hpiece
    obtain ⟨part, hpart, rfl⟩ := List.mem_map.1 hpiece
    exact (h.names part hpart).toList_ne

theorem takeWhile_slash {cs : List Char} (h : cs.head? ≠ some '/') : cs.takeWhile (· = '/') = [] := by
  cases cs with
  | nil => rfl
  | cons c cs =>
    have hc : c ≠ '/' := by simpa using h
    simp [hc]

theorem head?_ne_slash {cs : List Char} (h : ∀ rest, cs ≠ '/' :: rest) : cs.head? ≠ some '/' := by
  intro hhead
  obtain ⟨rest, hcs⟩ := List.head?_eq_some_iff.1 hhead
  exact h rest hcs

/-- An anchor is told by the number of slashes at the start. -/
theorem anchorOf_eq (cs : List Char) : anchorOf cs =
    if (cs.takeWhile (· = '/')).length = 0 then .relative
    else if (cs.takeWhile (· = '/')).length = 2 then .doubleRoot
    else .root := by
  unfold anchorOf
  split
  · simp
  · rename_i rest hthird
    simp [takeWhile_slash (head?_ne_slash hthird)]
  · rename_i rest _ hsecond
    simp [takeWhile_slash (head?_ne_slash hsecond)]
  · rename_i hfirst
    simp [takeWhile_slash (head?_ne_slash hfirst)]

theorem anchorOf_slash {rest : List Char} (h : rest.head? ≠ some '/') : anchorOf ('/' :: rest) = .root := by
  simp [anchorOf_eq, takeWhile_slash h]

theorem anchorOf_slashes {rest : List Char} (h : rest.head? ≠ some '/') :
    anchorOf ('/' :: '/' :: rest) = .doubleRoot := by
  simp [anchorOf_eq, takeWhile_slash h]

/-- A normal path is what its text says. -/
theorem ofString_toString {p : Path} (h : p.Normal) : ofString p.toString = p := by
  obtain ⟨hhead, -⟩ := intercalate_ends h.names
  have htext := toList_toString h.absolute
  generalize hrest : ['/'].intercalate (p.parts.map String.toList) = rest at hhead htext
  have hparts : ((pieces rest).map String.ofList).filter isPart = p.parts := by
    cases hcase : p.parts with
    | nil =>
      obtain rfl : rest = [] := by simpa [hcase] using hrest.symm
      rfl
    | cons part parts =>
      rw [pieces_eq_splitOn, ← hrest, splitOn_intercalate h.names (by simp [hcase]), ← hcase]
      simp only [List.map_map, Function.comp_def, String.ofList_toList, List.map_id_fun', id_eq]
      exact List.filter_eq_self.2 fun part hpart => (h.names part hpart).1.1
  have hanchor : p.anchor ≠ .relative := by simpa [isAbsolute] using h.absolute
  have hempty : isPart (String.ofList []) = false := rfl
  obtain ⟨anchor, parts⟩ := p
  rcases Anchor.text_cases hanchor with ⟨rfl, hslashes⟩ | ⟨rfl, hslashes⟩
  · simp only [ofString, htext, hslashes, List.cons_append, List.nil_append, anchorOf_slash hhead]
    simpa [pieces, hempty] using hparts
  · simp only [ofString, htext, hslashes, List.cons_append, List.nil_append, anchorOf_slashes hhead]
    simpa [pieces, hempty] using hparts

/-! ## Normalizing -/

/-- One more part on a stack of names leaves a stack of names, under an anchor. -/
theorem push_names {stack : List String} {part : String} (hstack : ∀ name ∈ stack, IsName name)
    (hpart : IsPiece part) : ∀ name ∈ push true stack part, IsName name := by
  unfold push
  split
  · split
    · simp
    · rename_i top below
      have htop : top ≠ ".." := (hstack top (by simp)).2
      rw [if_neg htop]
      exact fun name hname => hstack name (by simp [hname])
  · rename_i hup
    intro name hname
    rcases List.mem_cons.1 hname with rfl | hbelow
    · exact ⟨hpart, hup⟩
    · exact hstack name hbelow

theorem foldl_push_names {parts stack : List String} (hparts : ∀ part ∈ parts, IsPiece part)
    (hstack : ∀ name ∈ stack, IsName name) : ∀ name ∈ parts.foldl (push true) stack, IsName name := by
  induction parts generalizing stack with
  | nil => exact hstack
  | cons part parts ih =>
    apply ih
    · exact fun part hpart => hparts part (by simp [hpart])
    · exact push_names hstack (hparts part (by simp))

theorem Grounded.normalize_normal {p : Path} (h : p.Grounded) : p.normalize.Normal := by
  refine ⟨h.absolute, ?_⟩
  intro part hpart
  rw [normalize, h.absolute] at hpart
  exact foldl_push_names h.pieces (by simp) part (List.mem_reverse.1 hpart)

theorem foldl_push_of_names {parts : List String} (h : ∀ part ∈ parts, IsName part) (anchored : Bool)
    (stack : List String) : parts.foldl (push anchored) stack = parts.reverse ++ stack := by
  induction parts generalizing stack with
  | nil => rfl
  | cons part parts ih =>
    have hup : part ≠ ".." := (h part (by simp)).2
    rw [List.foldl_cons, ih fun part hpart => h part (by simp [hpart])]
    simp [push, hup]

theorem Normal.normalize_eq {p : Path} (h : p.Normal) : p.normalize = p := by
  simp [normalize, foldl_push_of_names h.names]

theorem Grounded.join {p q : Path} (hp : p.Grounded) (hq : ∀ part ∈ q.parts, IsPiece part) :
    (p.join q).Grounded := by
  unfold Path.join
  split
  · exact ⟨‹_›, hq⟩
  · refine ⟨hp.absolute, ?_⟩
    intro part hpart
    exact (List.mem_append.1 hpart).elim (hp.pieces part) (hq part)

end Path

/-! ## Contexts -/

open Path

/-- The directory and the home of a session are in normal form. -/
structure Context.Normal (ctx : Context) : Prop where
  directory : ctx.directory.Normal
  home : ctx.home.Normal

namespace Context

variable {ctx : Context}

theorem resolve_normal (h : ctx.directory.Normal) {p : Path} (hp : ∀ part ∈ p.parts, IsPiece part) :
    (ctx.resolve p).Normal :=
  (h.grounded.join hp).normalize_normal

/-- A normal path means itself in every session. -/
theorem resolve_of_normal (ctx : Context) {p : Path} (h : p.Normal) : ctx.resolve p = p := by
  simp [resolve, join, h.absolute, h.normalize_eq]

/-- Wherever `cd` leads to is in normal form. -/
theorem destination_normal (h : ctx.Normal) (target : String) : (Builtin.destination ctx target).Normal := by
  unfold Builtin.destination
  split
  · exact h.home
  split
  · rename_i rest _
    apply resolve_normal h.directory
    exact (h.home.grounded.join (ofString_pieces _)).pieces
  · exact resolve_normal h.directory (ofString_pieces target)

theorem moveTo_normal (h : ctx.Normal) (target : String) :
    (ctx.moveTo (Builtin.destination ctx target)).Normal :=
  ⟨destination_normal h target, h.home⟩

end Context

/-! ## The start of a session -/

namespace Start

variable {w : World}

/-- A text that begins with a slash is an absolute path. -/
theorem ofString_absolute {text : String} {rest : List Char} (h : text.toList = '/' :: rest) :
    (ofString text).isAbsolute = true := by
  simp only [isAbsolute, ofString, h, decide_eq_true_eq, ne_eq]
  unfold anchorOf
  split
  · simp
  · simp
  · simp
  · rename_i hnot
    exact absurd rfl (hnot rest)

/-- The interpreter's own directory has an absolute path. -/
theorem ownDirectory_run {here : Path} (h : (ownDirectory.run w).1 = .ok here) : here.Grounded := by
  unfold ownDirectory at h
  simp only [Job.run_bind] at h
  generalize hreply : (Job.call (.pathOf ((Job.call .directory).run w).1)).run ((Job.call .directory).run w).2 = r at h
  obtain ⟨path | path, w'⟩ := r
  · cases h
  · cases h
    have hpath : w.files.pathOf w.directory = .ok path := congrArg Prod.fst hreply
    unfold FileSystem.pathOf at hpath
    split at hpath
    · cases hpath
      exact ⟨ofString_absolute String.toList_append, ofString_pieces _⟩
    · cases hpath

theorem canonical_wp (base : Ino) (here p : Path) :
    (Canonical.canonical base here p).wp fun path => ∃ text, path = (here.join (ofString text)).normalize := by
  unfold Canonical.canonical
  simp only [Job.wp_bind, Job.wp_pure]
  exact Job.wp_of_forall (fun r => ⟨_, rfl⟩) _

/-- What is given as a path becomes an absolute path in normal form. -/
theorem canonicalOf_run {p path : Path} (h : ((canonicalOf p).run w).1 = .ok path) : path.Normal := by
  unfold canonicalOf at h
  split at h
  · cases h
  rw [Job.run_bind] at h
  have hhere : ∀ here, (Job.run (if p.isAbsolute then (return .ok rootPath) else ownDirectory) w).1 = .ok here →
      here.Grounded := by
    intro here hrun
    split at hrun
    · cases hrun
      exact ⟨rfl, by simp [rootPath]⟩
    · exact ownDirectory_run hrun
  generalize Job.run (if p.isAbsolute then (return .ok rootPath) else ownDirectory) w = found at h hhere
  obtain ⟨e | here, w₁⟩ := found
  · cases h
  -- Whatever the world replies, the path is seen from `here` and brought into normal form.
  have hpath : ∃ text, path = (here.join (ofString text)).normalize := by
    refine Job.wp_run (Q := fun result : Except StartError Path => ∀ path, result = .ok path →
      ∃ text, path = (here.join (ofString text)).normalize) ?_ w₁ path h
    dsimp only
    simp only [Job.wp_bind]
    refine (Job.wp_call _ _).2 fun base => Job.wp_mono ?_ (canonical_wp base here p)
    intro path hpath
    refine (Job.wp_call _ _).2 fun reply => ?_
    split
    · simp
    · simpa using hpath
  obtain ⟨text, rfl⟩ := hpath
  exact ((hhere here rfl).join (ofString_pieces text)).normalize_normal

theorem startDirectory_run {o : StartOptions} {directory : Path} (hgiven : given? o.directory ≠ none)
    (h : ((startDirectory o).run w).1 = .ok directory) : directory.Normal := by
  unfold startDirectory at h
  split at h
  · exact canonicalOf_run h
  · exact absurd ‹_› hgiven

theorem startHome_run {o : StartOptions} {home : Path} (hgiven : given? o.home ≠ none)
    (h : ((startHome o).run w).1 = .ok home) : home.Normal := by
  unfold startHome at h
  split at h
  · exact absurd ‹_› hgiven
  · rename_i path _
    rw [Job.run_bind] at h
    generalize (expandHome (ofString path)).run w = expanded at h
    obtain ⟨e | path, w₁⟩ := expanded
    · cases h
    · exact canonicalOf_run h

/-- A directory and a home that a session is started with are in normal form. -/
theorem create_run {o : StartOptions} {ctx : Context} (h : ((Context.create o).run w).1 = .ok ctx) :
    (given? o.directory ≠ none → ctx.directory.Normal) ∧ (given? o.home ≠ none → ctx.home.Normal) := by
  unfold Context.create at h
  rw [Job.run_bind] at h
  have hdirectory : given? o.directory ≠ none →
      ∀ directory, ((startDirectory o).run w).1 = .ok directory → directory.Normal :=
    fun hgiven directory => startDirectory_run hgiven
  generalize (startDirectory o).run w = started at h hdirectory
  obtain ⟨e | directory, w₁⟩ := started
  · cases h
  dsimp only at h
  rw [Job.run_bind] at h
  have hhome : given? o.home ≠ none → ∀ home, ((startHome o).run w₁).1 = .ok home → home.Normal :=
    fun hgiven home => startHome_run hgiven
  generalize (startHome o).run w₁ = started at h hhome
  obtain ⟨e | home, w₂⟩ := started
  · cases h
  dsimp only at h
  rw [Job.run_bind, Job.run_pure] at h
  cases h
  exact ⟨fun hgiven => hdirectory hgiven directory rfl, fun hgiven => hhome hgiven home rfl⟩

end Start

end Conch
