-- SUMMARY: Names resolved one after the other and at once, the stack reading of a name, and names below the home.
import Conch.Proofs.Session.Paths

/-!
# Resolving names

A session follows a name from its directory and brings what comes out into normal
form at once. Doing so at every step or only at the end is the same: a part that
has been cancelled early would have been cancelled late, and under an anchor a
`..` with nothing to cancel vanishes at either time. So a chain of moves ends
where one move along the joined names ends.

`Path.stackReading` says where a name leads without joining or normalizing: a walk that
keeps the names it has gone down and gives up the last one at `..`.

A target of `cd` that begins with `~/` is followed from the home, except that a
further slash makes the rest of it a path of its own.
-/

namespace Conch

namespace Path

variable {p q : Path}

/-! ## Joining and normalizing -/

theorem join_of_absolute (p : Path) (hq : q.isAbsolute = true) : p.join q = q := by
  simp [join, hq]

theorem join_of_relative (p : Path) (hq : q.isAbsolute = false) : p.join q = ⟨p.anchor, p.parts ++ q.parts⟩ := by
  simp [join, hq]

theorem join_assoc (p q r : Path) : (p.join q).join r = p.join (q.join r) := by
  obtain ⟨anchor, parts⟩ := q
  obtain ⟨last, rest⟩ := r
  cases anchor <;> cases last <;> simp [join, isAbsolute]

theorem join_pieces (hp : ∀ part ∈ p.parts, IsPiece part) (hq : ∀ part ∈ q.parts, IsPiece part) :
    ∀ part ∈ (p.join q).parts, IsPiece part := by
  unfold join
  split
  · exact hq
  · intro part hpart
    exact (List.mem_append.1 hpart).elim (hp part) (hq part)

/-- What is followed from an absolute path may be followed from its normal form. -/
theorem Grounded.normalize_join (hp : p.Grounded) (q : Path) : (p.normalize.join q).normalize = (p.join q).normalize := by
  cases hq : q.isAbsolute with
  | true => rw [join_of_absolute _ hq, join_of_absolute _ hq]
  | false =>
    have hnames := hp.normalize_normal.names
    have hstack : p.normalize.parts.foldl (push true) [] = p.parts.foldl (push true) [] := by
      rw [foldl_push_of_names hnames]
      simp [normalize, hp.absolute]
    have hanchor : p.normalize.anchor = p.anchor := rfl
    have habsolute : ∀ parts, isAbsolute ⟨p.anchor, parts⟩ = true := fun _ => hp.absolute
    rw [join_of_relative _ hq, join_of_relative _ hq, hanchor]
    simp only [normalize, habsolute, List.foldl_append] at hstack ⊢
    rw [hstack]

/-- The join of some names, in the order they are followed. -/
def joinAll (names : List String) : Path :=
  names.foldl (fun p name => p.join (ofString name)) ⟨.relative, []⟩

/-! ## The stack reading -/

/-- What stands between the slashes of a text. -/
def components (text : String) : List String :=
  (text.toList.splitOn '/').map String.ofList

/-- How many slashes a text begins with. -/
def leadingSlashes (text : String) : Nat :=
  (text.toList.takeWhile (· = '/')).length

/-- Go down by one component. An empty one and a dot lead nowhere, and two dots give up the last
    name, if there is one. -/
def descend (stack : List String) (component : String) : List String :=
  if component = "" ∨ component = "." then stack
  else if component = ".." then stack.dropLast
  else stack ++ [component]

/-- Where a text is followed from: the directory, or a root of its own. -/
def startOf (directory : Path) (text : String) : Path :=
  if leadingSlashes text = 0 then directory
  else if leadingSlashes text = 2 then ⟨.doubleRoot, []⟩
  else ⟨.root, []⟩

/-- Where a text leads from a directory, component by component. -/
def stackReading (directory : Path) (text : String) : Path :=
  ⟨(startOf directory text).anchor, (components text).foldl descend (startOf directory text).parts⟩

theorem ofString_eq (text : String) :
    ofString text = ⟨anchorOf text.toList, (components text).filter isPart⟩ := by
  simp only [ofString, components, pieces_eq_splitOn]

theorem join_ofString (directory : Path) (text : String) : directory.join (ofString text) =
    ⟨(startOf directory text).anchor, (startOf directory text).parts ++ (components text).filter isPart⟩ := by
  rw [ofString_eq, anchorOf_eq]
  unfold startOf leadingSlashes
  split
  · simp [join, isAbsolute]
  · split <;> simp [join, isAbsolute]

theorem component_isPiece {text component : String} (h : component ∈ components text) (hpart : isPart component = true) :
    IsPiece component := by
  refine ofString_pieces text component ?_
  simp only [ofString, pieces_eq_splitOn]
  exact List.mem_filter.2 ⟨h, hpart⟩

/-- One component on a stack of names: `push` keeps the stack with its last name first. -/
theorem push_reverse {stack : List String} {component : String} (hstack : ∀ name ∈ stack, IsName name)
    (hpart : isPart component = true) : push true stack.reverse component = (descend stack component).reverse := by
  have hreal : ¬ (component = "" ∨ component = ".") := by
    simpa [isPart] using hpart
  unfold descend push
  rw [if_neg hreal]
  split
  · rcases List.eq_nil_or_concat stack with rfl | ⟨below, top, rfl⟩
    · rfl
    · have htop : top ≠ ".." := (hstack top (by simp)).2
      simp [htop]
  · simp

theorem descend_of_not_part {stack : List String} {component : String} (hpart : isPart component = false) :
    descend stack component = stack := by
  have hnone : component = "" ∨ component = "." := by
    by_contra hreal
    simp [isPart] at hpart
    tauto
  simp [descend, hnone]

theorem descend_names {stack : List String} {component : String} (hstack : ∀ name ∈ stack, IsName name)
    (hpart : isPart component = true → IsPiece component) : ∀ name ∈ descend stack component, IsName name := by
  cases hcase : isPart component with
  | false => rwa [descend_of_not_part hcase]
  | true =>
    have hnames := push_names (fun name hname => hstack name (List.mem_reverse.1 hname)) (hpart hcase)
    rw [push_reverse hstack hcase] at hnames
    exact fun name hname => hnames name (List.mem_reverse.2 hname)

theorem foldl_push_reverse {components stack : List String} (hstack : ∀ name ∈ stack, IsName name)
    (hparts : ∀ component ∈ components, isPart component = true → IsPiece component) :
    (components.filter isPart).foldl (push true) stack.reverse = (components.foldl descend stack).reverse := by
  induction components generalizing stack with
  | nil => rfl
  | cons component components ih =>
    have hfirst := hparts component (by simp)
    have hrest := ih (descend_names hstack hfirst) fun component hmem => hparts component (by simp [hmem])
    rw [List.foldl_cons, ← hrest]
    cases hcase : isPart component with
    | false => rw [List.filter_cons_of_neg (by simp [hcase]), descend_of_not_part hcase]
    | true => rw [List.filter_cons_of_pos hcase, List.foldl_cons, push_reverse hstack hcase]

theorem startOf_normal {directory : Path} (h : directory.Normal) (text : String) : (startOf directory text).Normal := by
  unfold startOf
  split
  · exact h
  split
  · exact ⟨rfl, by simp⟩
  · exact ⟨rfl, by simp⟩

/-- Joining a name and normalizing is reading it component by component. -/
theorem Normal.normalize_join_ofString {directory : Path} (h : directory.Normal) (text : String) :
    (directory.join (ofString text)).normalize = stackReading directory text := by
  have hstart := startOf_normal h text
  have hpieces : ∀ component ∈ components text, isPart component = true → IsPiece component :=
    fun component hmem => component_isPiece hmem
  have hread := foldl_push_reverse hstart.names hpieces
  have habsolute : isAbsolute ⟨(startOf directory text).anchor,
      (startOf directory text).parts ++ (components text).filter isPart⟩ = true := hstart.absolute
  rw [join_ofString, normalize, habsolute, List.foldl_append, foldl_push_of_names hstart.names, List.append_nil, hread,
    List.reverse_reverse]
  rfl

end Path

/-! ## One move after another -/

open Path

namespace Context

variable {ctx : Context}

@[simp] theorem moveTo_directory (ctx : Context) (path : Path) : (ctx.moveTo path).directory = path := rfl

@[simp] theorem moveTo_moveTo (ctx : Context) (p q : Path) : (ctx.moveTo p).moveTo q = ctx.moveTo q := rfl

/-- A path that is resolved after a move may be joined to it before. -/
theorem resolve_moveTo_resolve (h : ctx.directory.Normal) {p : Path} (hp : ∀ part ∈ p.parts, IsPiece part) (q : Path) :
    (ctx.moveTo (ctx.resolve p)).resolve q = ctx.resolve (p.join q) := by
  simp only [resolve, moveTo_directory]
  rw [(h.grounded.join hp).normalize_join, join_assoc]

/-- Move along each of some names in turn. -/
def follow (ctx : Context) (names : List String) : Context :=
  names.foldl (fun ctx name => ctx.moveTo (ctx.resolve (ofString name))) ctx

/-- Moves after a first one, which has gone along `p`. -/
theorem follow_moveTo (h : ctx.directory.Normal) {p : Path} (hp : ∀ part ∈ p.parts, IsPiece part)
    (names : List String) : (ctx.moveTo (ctx.resolve p)).follow names =
      ctx.moveTo (ctx.resolve (names.foldl (fun p name => p.join (ofString name)) p)) := by
  induction names generalizing p with
  | nil => rfl
  | cons name names ih =>
    have hstep := resolve_moveTo_resolve h hp (ofString name)
    have hrest := ih (join_pieces hp (ofString_pieces name))
    simp only [follow, List.foldl_cons, moveTo_moveTo] at hrest ⊢
    rw [hstep, hrest]

theorem follow_eq (h : ctx.directory.Normal) (names : List String) :
    ctx.follow names = ctx.moveTo (ctx.resolve (joinAll names)) := by
  have hstay : ctx.moveTo (ctx.resolve ⟨.relative, []⟩) = ctx := by
    have hnone : ctx.directory.join ⟨.relative, []⟩ = ctx.directory := by
      simp [join, isAbsolute]
    simp [resolve, hnone, h.normalize_eq, moveTo]
  have hnothing : ∀ part ∈ (⟨.relative, []⟩ : Path).parts, IsPiece part := List.forall_mem_nil _
  have hall := follow_moveTo h hnothing names
  rwa [hstay] at hall

/-- Names resolved one after the other lead where their join leads, and each where its components
    lead from the directory on a stack of names. -/
theorem resolve_composes (h : ctx.directory.Normal) :
    (∀ a b, (ctx.moveTo (ctx.resolve (ofString a))).resolve (ofString b) =
      ctx.resolve ((ofString a).join (ofString b))) ∧
    (∀ names, ctx.follow names = ctx.moveTo (ctx.resolve (joinAll names))) ∧
    ∀ name, ctx.resolve (ofString name) = stackReading ctx.directory name := by
  refine ⟨?_, follow_eq h, ?_⟩
  · intro a b
    exact resolve_moveTo_resolve h (ofString_pieces a) (ofString b)
  · intro name
    exact h.normalize_join_ofString name

/-- A session in `//work`. -/
def workContext : Context := ⟨⟨.doubleRoot, ["work"]⟩, rootPath, []⟩

/-- Moves above the root of `//work` and down again, and a name with a root of its own. -/
theorem resolve_composes_above_root :
    workContext.directory.Normal ∧
    workContext.follow ["../..", "./etc//x", "", "../y/"] = workContext.moveTo ⟨.doubleRoot, ["etc", "y"]⟩ ∧
    workContext.resolve (ofString "///a/../b") = ⟨.root, ["b"]⟩ := by
  have hnormal : workContext.directory.Normal := ⟨rfl, by decide⟩
  obtain ⟨-, hfollow, hreading⟩ := resolve_composes hnormal
  refine ⟨hnormal, ?_, ?_⟩
  · rw [hfollow]
    decide
  · rw [hreading]
    decide

end Context

/-! ## Below the home -/

namespace Builtin

variable {ctx : Context}

theorem destination_tilde (ctx : Context) : destination ctx "~" = ctx.home := by
  simp [destination]

theorem ne_tilde {text : String} {first second : Char} {rest : List Char}
    (htext : text.toList = first :: second :: rest) : text ≠ "~" := by
  rintro rfl
  simp at htext

theorem destination_home (ctx : Context) (rest : String) :
    destination ctx ("~/" ++ rest) = ctx.resolve (ctx.home.join (ofString rest)) := by
  have htext : ("~/" ++ rest).toList = '~' :: '/' :: rest.toList := String.toList_append
  simp [destination, ne_tilde htext, htext]

theorem destination_here (ctx : Context) (rest : String) :
    destination ctx ("./" ++ rest) = ctx.resolve (ofString ("./" ++ rest)) := by
  have htext : ("./" ++ rest).toList = '.' :: '/' :: rest.toList := String.toList_append
  simp [destination, ne_tilde htext, htext]

/-- A dot in front of a name takes away the root it may have, and nothing else. -/
theorem ofString_here (rest : String) : ofString ("./" ++ rest) = ⟨.relative, (ofString rest).parts⟩ := by
  have htext : ("./" ++ rest).toList = '.' :: '/' :: rest.toList := String.toList_append
  have hdot : isPart (String.ofList ['.']) = false := rfl
  simp [ofString, htext, anchorOf, pieces, hdot]

theorem ofString_relative {text : String} (h : text.toList.head? ≠ some '/') : (ofString text).isAbsolute = false := by
  simp [ofString_eq, anchorOf_eq, takeWhile_slash h, isAbsolute]

/-- What follows `~/` leads from the home as it would after a `cd` to there, unless it begins with a
    slash: then it is an absolute path, and the home is left out. -/
theorem destination_below_home (hhome : ctx.home.Normal) (rest : String) :
    (rest.toList.head? ≠ some '/' →
      destination ctx ("~/" ++ rest) = (ctx.moveTo ctx.home).resolve (ofString ("./" ++ rest)) ∧
      destination ctx ("~/" ++ rest) = destination (ctx.moveTo (destination ctx "~")) ("./" ++ rest)) ∧
    (rest.toList.head? = some '/' → destination ctx ("~/" ++ rest) = (ofString rest).normalize) := by
  rw [destination_home, destination_tilde, destination_here, ofString_here]
  constructor
  · intro hrest
    have hrelative := ofString_relative hrest
    have hjoin := join_of_relative ctx.home hrelative
    have habsolute : (ctx.home.join (ofString rest)).isAbsolute = true := by
      rw [hjoin]
      exact hhome.absolute
    have hdots : ctx.home.join ⟨.relative, (ofString rest).parts⟩ = ctx.home.join (ofString rest) := by
      rw [hjoin]
      rfl
    have hsame : ctx.resolve (ctx.home.join (ofString rest)) =
        (ctx.moveTo ctx.home).resolve ⟨.relative, (ofString rest).parts⟩ := by
      simp only [Context.resolve, Context.moveTo_directory]
      rw [join_of_absolute _ habsolute, hdots]
    exact ⟨hsame, hsame⟩
  · intro hrest
    obtain ⟨others, hslash⟩ : ∃ others, rest.toList = '/' :: others := List.head?_eq_some_iff.1 hrest
    have habsolute := Start.ofString_absolute hslash
    rw [join_of_absolute _ habsolute, Context.resolve, join_of_absolute _ habsolute]

/-- A session in `/work` with the home `/home`. -/
def homeContext : Context := ⟨⟨.root, ["work"]⟩, ⟨.root, ["home"]⟩, []⟩

/-- With dots and slashes inside and at the end it stays below the home, with one more in front it does not. -/
theorem destination_below_home_of_slashes :
    homeContext.home.Normal ∧
    destination homeContext ("~/" ++ "./docs//x/../") = ⟨.root, ["home", "docs"]⟩ ∧
    destination homeContext ("~/" ++ "") = ⟨.root, ["home"]⟩ ∧
    destination homeContext ("~/" ++ "/dev") = ⟨.root, ["dev"]⟩ := by
  have hhome : homeContext.home.Normal := ⟨rfl, by decide⟩
  have hbelow := destination_below_home hhome
  refine ⟨hhome, ?_, ?_, ?_⟩
  · rw [((hbelow "./docs//x/../").1 (by decide)).1]
    decide
  · rw [((hbelow "").1 (by decide)).1]
    decide
  · rw [(hbelow "/dev").2 (by decide)]
    decide

/-- From the home `/home`, `~//` leads to the root, though `.//` leads nowhere else. -/
theorem destination_leaves_home :
    homeContext.home.Normal ∧ destination homeContext ("~/" ++ "/") = rootPath ∧
    (homeContext.moveTo homeContext.home).resolve (ofString ("./" ++ "/")) = ⟨.root, ["home"]⟩ :=
  ⟨⟨rfl, by decide⟩, by decide, by decide⟩

end Builtin

end Conch
