-- SUMMARY: The lookup of a command name: the built-in names, a path in place, or the first match on the search path.
import Conch.Proofs.Session.Resolving
import Mathlib.Data.List.Find

/-!
# Searching for commands

A name is one of the four built-in ones, or it has a slash in it and means one path, or
it is joined to the entries of the search path one after the other. What is found is the
first of these candidates that leads to an executable file, so nothing else about the
session or the files takes part: `Lookup.candidates_decide` compares any two lookups that
try the same paths. The search path matters up to its first match only, and there only
through the entries that have one.
-/

namespace Conch

open FileSystem Path

/-! ## Executable files -/

namespace FileSystem

variable {fs : FileSystem} {path : Path}

/-- A path leads, through links if need be, to a stored file that may be run. -/
def HasExecutable (fs : FileSystem) (path : Path) : Prop :=
  hasNul path.toString = false ∧ ∃ i, fs.find root path.toString true = .ok i ∧
    ((∃ content, fs.node? i = some (.file content true)) ∨ ∃ name, fs.node? i = some (.program name))

theorem kind_isRunnable_iff (n : Node) :
    n.kind.isRunnable = true ↔ (∃ content, n = .file content true) ∨ ∃ name, n = .program name := by
  cases n <;> simp [Node.kind, FileKind.isRunnable]

theorem hasExecutable_iff : fs.HasExecutable path ↔ hasNul path.toString = false ∧
    (fs.stat root path.toString true).toOption.any FileKind.isRunnable = true := by
  unfold HasExecutable stat
  refine and_congr_right fun _ => ?_
  cases fs.find root path.toString true with
  | error e => simp [Except.toOption]
  | ok i =>
    cases hnode : fs.node? i with
    | none => simp [hnode, Except.toOption]
    | some n => simp [hnode, Except.toOption, kind_isRunnable_iff]

instance (fs : FileSystem) (path : Path) : Decidable (fs.HasExecutable path) :=
  decidable_of_iff _ hasExecutable_iff.symm

theorem decide_hasExecutable : decide (fs.HasExecutable path) =
    (!hasNul path.toString && (fs.stat root path.toString true).toOption.any FileKind.isRunnable) := by
  rw [Bool.eq_iff_iff]
  simp [hasExecutable_iff]

end FileSystem

/-! ## Looking -/

theorem Builtin.ofName?_eq_some {name : String} {b : Builtin} : Builtin.ofName? name = some b ↔ name = b.name := by
  constructor
  · intro h
    unfold Builtin.ofName? at h
    repeat' split at h
    all_goals cases h
    all_goals assumption
  · rintro rfl
    cases b <;> rfl

/-- No built-in command has a slash in its name. -/
theorem Builtin.name_slash (b : Builtin) : '/' ∉ b.name.toList := by
  cases b <;> decide

namespace Lookup

variable {ctx : Context} {name : String} {w : World}

theorem isExecutable_run (path : Path) (w : World) :
    (isExecutable path).run w = (decide (w.files.HasExecutable path), w) := by
  unfold isExecutable
  rw [decide_hasExecutable]
  cases hasNul path.toString with
  | true => simp
  | false =>
    have hreply : (Job.call (.stat root path.toString true)).run w = (w.files.stat root path.toString true, w) := rfl
    simp only [Bool.false_eq_true, if_false, Job.run_bind, hreply, Bool.not_false, Bool.true_and]
    cases w.files.stat root path.toString true with
    | error e => simp [Except.toOption]
    | ok kind => simp [Except.toOption]

theorem firstExecutable_run (paths : List Path) (w : World) :
    (firstExecutable paths).run w = (paths.find? fun path => w.files.HasExecutable path, w) := by
  induction paths with
  | nil => rfl
  | cons path rest ih =>
    rw [firstExecutable, Job.run_bind, isExecutable_run]
    by_cases hfirst : w.files.HasExecutable path
    · simp [hfirst]
    · simp [hfirst, ih]

/-- What a name means to a session in a world. -/
def answer (ctx : Context) (name : String) (w : World) : Resolution :=
  ((find ctx name).run w).1

/-- Where a name is looked for in an entry of the search path. -/
def candidate (ctx : Context) (name : String) (dir : String) : Path :=
  ctx.resolve ((ofString dir).join (ofString name))

theorem candidates_of_slash (h : '/' ∈ name.toList) : candidates ctx name = [ctx.resolve (ofString name)] := by
  simp [candidates, h]

theorem candidates_of_bare (h : '/' ∉ name.toList) : candidates ctx name = ctx.searchPath.map (candidate ctx name) := by
  simp [candidates, h, candidate]

theorem find_run_builtin {b : Builtin} (h : name = b.name) : (find ctx name).run w = (.builtin b, w) := by
  simp [find, Builtin.ofName?_eq_some.2 h]

theorem find_run_other (h : ∀ b : Builtin, name ≠ b.name) : (find ctx name).run w =
    (((candidates ctx name).find? fun path => w.files.HasExecutable path).elim .notFound .external, w) := by
  have hnone : Builtin.ofName? name = none :=
    Option.eq_none_iff_forall_ne_some.2 fun b hb => h b (Builtin.ofName?_eq_some.1 hb)
  simp only [find, hnone, Job.run_bind, firstExecutable_run]
  cases (candidates ctx name).find? fun path => w.files.HasExecutable path with
  | none => rfl
  | some path => rfl

theorem builtin_or_other (name : String) : (∃ b : Builtin, name = b.name) ∨ ∀ b : Builtin, name ≠ b.name := by
  rw [← not_exists]
  exact em _

theorem answer_builtin {b : Builtin} (h : name = b.name) : answer ctx name w = .builtin b :=
  congrArg Prod.fst (find_run_builtin h)

theorem answer_other (h : ∀ b : Builtin, name ≠ b.name) : answer ctx name w =
    ((candidates ctx name).find? fun path => w.files.HasExecutable path).elim .notFound .external :=
  congrArg Prod.fst (find_run_other h)

theorem answer_eq_builtin_iff {b : Builtin} : answer ctx name w = .builtin b ↔ name = b.name := by
  refine ⟨fun h => ?_, answer_builtin⟩
  rcases builtin_or_other name with ⟨b', hb'⟩ | hother
  · rw [answer_builtin hb'] at h
    cases h
    exact hb'
  · rw [answer_other hother] at h
    cases hfind : (candidates ctx name).find? fun path => w.files.HasExecutable path <;> rw [hfind] at h <;> cases h

theorem answer_eq_external_iff (hother : ∀ b : Builtin, name ≠ b.name) {path : Path} :
    answer ctx name w = .external path ↔
      (candidates ctx name).find? (fun path => w.files.HasExecutable path) = some path := by
  rw [answer_other hother]
  cases (candidates ctx name).find? fun path => w.files.HasExecutable path <;> simp

theorem answer_eq_notFound_iff (hother : ∀ b : Builtin, name ≠ b.name) :
    answer ctx name w = .notFound ↔ ∀ path ∈ candidates ctx name, ¬ w.files.HasExecutable path := by
  have hnone : (candidates ctx name).find? (fun path => w.files.HasExecutable path) = none ↔
      ∀ path ∈ candidates ctx name, ¬ w.files.HasExecutable path := by
    simp [List.find?_eq_none]
  rw [answer_other hother, ← hnone]
  cases (candidates ctx name).find? fun path => w.files.HasExecutable path <;> simp

/-- Two lookups that try the same paths and find the same of them executable have the same answer. -/
theorem candidates_decide {other : Context} {w' : World} (hsame : candidates other name = candidates ctx name)
    (hfiles : ∀ path ∈ candidates ctx name, (w'.files.HasExecutable path ↔ w.files.HasExecutable path)) :
    answer other name w' = answer ctx name w := by
  rcases builtin_or_other name with ⟨b, hb⟩ | hother
  · rw [answer_builtin hb, answer_builtin hb]
  · rw [answer_other hother, answer_other hother, hsame]
    have hfirst : (candidates ctx name).find? (fun path => w'.files.HasExecutable path) =
        (candidates ctx name).find? fun path => w.files.HasExecutable path :=
      List.find?_congr fun path hpath => by simp [hfiles path hpath]
    rw [hfirst]

/-! ## A name with a slash -/

theorem other_of_slash (h : '/' ∈ name.toList) (b : Builtin) : name ≠ b.name := by
  rintro rfl
  exact b.name_slash h

theorem external_in_place (h : '/' ∈ name.toList) {path : Path} : answer ctx name w = .external path ↔
    path = ctx.resolve (ofString name) ∧ w.files.HasExecutable path := by
  rw [answer_eq_external_iff (other_of_slash h), candidates_of_slash h, List.find?_singleton]
  split
  · rename_i hpath
    constructor
    · rintro ⟨⟩
      exact ⟨rfl, by simpa using hpath⟩
    · rintro ⟨rfl, -⟩
      rfl
  · rename_i hpath
    constructor
    · rintro ⟨⟩
    · rintro ⟨rfl, hexecutable⟩
      exact absurd (by simpa using hexecutable) hpath

theorem notFound_in_place (h : '/' ∈ name.toList) :
    answer ctx name w = .notFound ↔ ¬ w.files.HasExecutable (ctx.resolve (ofString name)) := by
  rw [answer_eq_notFound_iff (other_of_slash h), candidates_of_slash h]
  simp

/-- Only the one path that a name with a slash means takes part in its lookup. -/
theorem in_place_only (h : '/' ∈ name.toList) {other : Context} {w' : World}
    (hsame : other.resolve (ofString name) = ctx.resolve (ofString name))
    (hfile : w'.files.HasExecutable (ctx.resolve (ofString name)) ↔
      w.files.HasExecutable (ctx.resolve (ofString name))) : answer other name w' = answer ctx name w := by
  refine candidates_decide ?_ ?_
  · rw [candidates_of_slash h, candidates_of_slash h, hsame]
  · rw [candidates_of_slash h]
    intro path hpath
    obtain rfl := List.mem_singleton.1 hpath
    exact hfile

/-! ## The search path -/

/-- The session with another search path. -/
def searching (ctx : Context) (dirs : List String) : Context :=
  { ctx with searchPath := dirs }

theorem external_on_path (hother : ∀ b : Builtin, name ≠ b.name) (h : '/' ∉ name.toList) {path : Path} :
    answer ctx name w = .external path ↔ ∃ before dir after, ctx.searchPath = before ++ dir :: after ∧
      path = candidate ctx name dir ∧ w.files.HasExecutable path ∧
      ∀ earlier ∈ before, ¬ w.files.HasExecutable (candidate ctx name earlier) := by
  rw [answer_eq_external_iff hother, candidates_of_bare h, List.find?_map, Option.map_eq_some_iff]
  constructor
  · rintro ⟨dir, hfirst, rfl⟩
    obtain ⟨hdir, before, after, hdirs, hbefore⟩ := List.find?_eq_some_iff_append.1 hfirst
    exact ⟨before, dir, after, hdirs, rfl, by simpa using hdir, by simpa using hbefore⟩
  · rintro ⟨before, dir, after, hdirs, rfl, hdir, hbefore⟩
    refine ⟨dir, List.find?_eq_some_iff_append.2 ⟨by simpa using hdir, before, after, hdirs, ?_⟩, rfl⟩
    simpa using hbefore

theorem notFound_on_path (hother : ∀ b : Builtin, name ≠ b.name) (h : '/' ∉ name.toList) :
    answer ctx name w = .notFound ↔ ∀ dir ∈ ctx.searchPath, ¬ w.files.HasExecutable (candidate ctx name dir) := by
  rw [answer_eq_notFound_iff hother, candidates_of_bare h, List.forall_mem_map]

/-- A lookup along a search path is settled by the first match on it. -/
theorem answer_searching_congr {dirs dirs' : List String}
    (h : dirs.find? (fun dir => w.files.HasExecutable (candidate ctx name dir)) =
      dirs'.find? fun dir => w.files.HasExecutable (candidate ctx name dir)) :
    answer (searching ctx dirs) name w = answer (searching ctx dirs') name w := by
  by_cases hslash : '/' ∈ name.toList
  · exact in_place_only hslash rfl Iff.rfl
  rcases builtin_or_other name with ⟨b, hb⟩ | hother
  · rw [answer_builtin hb, answer_builtin hb]
  have hcandidate : ∀ dirs, candidates (searching ctx dirs) name = dirs.map (candidate ctx name) :=
    fun _ => candidates_of_bare hslash
  have hfound : (dirs.map (candidate ctx name)).find? (fun path => w.files.HasExecutable path) =
      (dirs'.map (candidate ctx name)).find? fun path => w.files.HasExecutable path := by
    simp only [List.find?_map, Function.comp_def, h]
  rw [answer_other hother, answer_other hother, hcandidate, hcandidate, hfound]

theorem later_entries {before after after' : List String} {dir : String}
    (hdir : w.files.HasExecutable (candidate ctx name dir)) :
    answer (searching ctx (before ++ dir :: after)) name w = answer (searching ctx (before ++ dir :: after')) name w := by
  refine answer_searching_congr ?_
  simp [List.find?_append, hdir]

theorem entry_without_match {before after : List String} {dir : String}
    (hdir : ¬ w.files.HasExecutable (candidate ctx name dir)) :
    answer (searching ctx (before ++ dir :: after)) name w = answer (searching ctx (before ++ after)) name w := by
  refine answer_searching_congr ?_
  simp [List.find?_append, hdir]

/-- An absolute entry gives the same candidate in every directory. -/
theorem candidate_of_absolute {dir : String} (hdir : (ofString dir).isAbsolute = true) (directory : Path) :
    candidate (ctx.moveTo directory) name dir = candidate ctx name dir := by
  have habsolute : ((ofString dir).join (ofString name)).isAbsolute = true := by
    unfold join
    split
    · assumption
    · exact hdir
  unfold candidate Context.resolve
  rw [join_of_absolute _ habsolute, join_of_absolute _ habsolute]

theorem any_directory (h : '/' ∉ name.toList) (hdirs : ∀ dir ∈ ctx.searchPath, (ofString dir).isAbsolute = true)
    (directory : Path) : answer (ctx.moveTo directory) name w = answer ctx name w := by
  refine candidates_decide ?_ fun _ _ => Iff.rfl
  rw [candidates_of_bare h, candidates_of_bare h]
  exact List.map_congr_left fun dir hdir => candidate_of_absolute (hdirs dir hdir) directory

/-! ## What is found -/

theorem candidates_normal (h : ctx.directory.Normal) : ∀ path ∈ candidates ctx name, path.Normal := by
  intro path hpath
  unfold candidates at hpath
  split at hpath
  · obtain rfl := List.mem_singleton.1 hpath
    exact Context.resolve_normal h (ofString_pieces name)
  · obtain ⟨dir, -, rfl⟩ := List.mem_map.1 hpath
    exact Context.resolve_normal h (join_pieces (ofString_pieces dir) (ofString_pieces name))

theorem external_normal (h : ctx.directory.Normal) {path : Path} (hfound : answer ctx name w = .external path) :
    path.Normal := by
  rcases builtin_or_other name with ⟨b, hb⟩ | hother
  · rw [answer_builtin hb] at hfound
    cases hfound
  · exact candidates_normal h path (List.mem_of_find?_eq_some ((answer_eq_external_iff hother).1 hfound))

/-- What the lookup of a name comes to, and all that it depends on. -/
structure FirstMatch (ctx : Context) (name : String) : Prop where
  /-- Looking changes nothing. -/
  untouched : ∀ w, ((find ctx name).run w).2 = w
  /-- Built-in names win, whatever files there are. -/
  builtin : ∀ w b, answer ctx name w = .builtin b ↔ name = b.name
  /-- A name with a slash means one path, which is executable or not. -/
  inPlace : '/' ∈ name.toList → ∀ w,
    (∀ path, answer ctx name w = .external path ↔
      path = ctx.resolve (ofString name) ∧ w.files.HasExecutable path) ∧
    (answer ctx name w = .notFound ↔ ¬ w.files.HasExecutable (ctx.resolve (ofString name)))
  /-- Nothing but that path takes part, neither the search path nor any other file. -/
  inPlaceOnly : '/' ∈ name.toList → ∀ (other : Context) (w w' : World),
    other.resolve (ofString name) = ctx.resolve (ofString name) →
    (w'.files.HasExecutable (ctx.resolve (ofString name)) ↔ w.files.HasExecutable (ctx.resolve (ofString name))) →
    answer other name w' = answer ctx name w
  /-- In particular the search path is of no matter. -/
  anySearchPath : '/' ∈ name.toList → ∀ dirs w, answer (searching ctx dirs) name w = answer ctx name w
  /-- Any other name is found in the first entry of the search path that has it, -/
  firstMatch : (∀ b : Builtin, name ≠ b.name) → '/' ∉ name.toList → ∀ w path,
    answer ctx name w = .external path ↔ ∃ before dir after, ctx.searchPath = before ++ dir :: after ∧
      path = candidate ctx name dir ∧ w.files.HasExecutable path ∧
      ∀ earlier ∈ before, ¬ w.files.HasExecutable (candidate ctx name earlier)
  /-- and not found if no entry has it. -/
  noMatch : (∀ b : Builtin, name ≠ b.name) → '/' ∉ name.toList → ∀ w,
    answer ctx name w = .notFound ↔ ∀ dir ∈ ctx.searchPath, ¬ w.files.HasExecutable (candidate ctx name dir)
  /-- The paths that are tried settle the lookup in any session and any world. -/
  candidatesOnly : ∀ (other : Context) (w w' : World), candidates other name = candidates ctx name →
    (∀ path ∈ candidates ctx name, (w'.files.HasExecutable path ↔ w.files.HasExecutable path)) →
    answer other name w' = answer ctx name w
  /-- What comes after a match may be anything. -/
  laterEntries : ∀ w before dir after after', w.files.HasExecutable (candidate ctx name dir) →
    answer (searching ctx (before ++ dir :: after)) name w = answer (searching ctx (before ++ dir :: after')) name w
  /-- An entry without a match may stand anywhere or be left out. -/
  otherEntries : ∀ w before dir after, ¬ w.files.HasExecutable (candidate ctx name dir) →
    answer (searching ctx (before ++ dir :: after)) name w = answer (searching ctx (before ++ after)) name w
  /-- What is found has an absolute path in normal form. -/
  normal : ∀ w path, answer ctx name w = .external path → path.Normal ∧ NormalText path.toString
  /-- With absolute entries only, a bare name means the same in every directory. -/
  anyDirectory : '/' ∉ name.toList → (∀ dir ∈ ctx.searchPath, (ofString dir).isAbsolute = true) →
    ∀ directory w, answer (ctx.moveTo directory) name w = answer ctx name w

theorem find_run_world (ctx : Context) (name : String) (w : World) : ((find ctx name).run w).2 = w := by
  rcases builtin_or_other name with ⟨b, hb⟩ | hother
  · rw [find_run_builtin hb]
  · rw [find_run_other hother]

/-- The first match decides, and nothing else does. -/
theorem find_firstMatch (h : ctx.directory.Normal) (name : String) : FirstMatch ctx name where
  untouched := find_run_world ctx name
  builtin _ _ := answer_eq_builtin_iff
  inPlace hslash _ := ⟨fun _ => external_in_place hslash, notFound_in_place hslash⟩
  inPlaceOnly hslash _ _ _ := in_place_only hslash
  anySearchPath hslash _ _ := in_place_only hslash rfl Iff.rfl
  firstMatch hother hbare _ _ := external_on_path hother hbare
  noMatch hother hbare _ := notFound_on_path hother hbare
  candidatesOnly _ _ _ := candidates_decide
  laterEntries _ _ _ _ _ := later_entries
  otherEntries _ _ _ _ := entry_without_match
  normal _ _ hfound := ⟨external_normal h hfound, (external_normal h hfound).text⟩
  anyDirectory hbare hdirs directory _ := any_directory hbare hdirs directory

/-- A world with a file `/a/run` that may not be run, a directory `/b/run`, a program `/c/run`,
    and a link `/d/run` to it. -/
def shadowedWorld : World :=
  { files := ⟨#[.dir 0 [("a", 1), ("b", 3), ("c", 5), ("d", 7)], .dir 0 [("run", 2)], .file [] false,
      .dir 0 [("run", 4)], .dir 3 [], .dir 0 [("run", 6)], .file [] true, .dir 0 [("run", 8)], .link "../c/run"]⟩ }

/-- A session in `/a` of that world. -/
def shadowedContext : Context :=
  ⟨⟨.root, ["a"]⟩, rootPath, [".", "/b", "../c/", "/d"]⟩

/-- What may not be run hides nothing, and a link is found as what it is named. -/
theorem find_firstMatch_of_shadowed :
    shadowedContext.directory.Normal ∧
    answer shadowedContext "run" shadowedWorld = .external ⟨.root, ["c", "run"]⟩ ∧
    answer (searching shadowedContext ["../c/", "/d"]) "run" shadowedWorld = .external ⟨.root, ["c", "run"]⟩ ∧
    answer (searching shadowedContext []) "../d/run" shadowedWorld = .external ⟨.root, ["d", "run"]⟩ ∧
    answer shadowedContext "./run" shadowedWorld = .notFound := by
  have hnormal : shadowedContext.directory.Normal := ⟨rfl, by decide⟩
  have hother : ∀ b : Builtin, "run" ≠ b.name := by
    intro b
    cases b <;> decide
  have hrun := find_firstMatch hnormal "run"
  have hfound : answer shadowedContext "run" shadowedWorld = .external ⟨.root, ["c", "run"]⟩ := by
    rw [hrun.firstMatch hother (by decide)]
    refine ⟨[".", "/b"], "../c/", ["/d"], rfl, ?_, ?_, ?_⟩
    · decide +kernel
    · decide +kernel
    · decide +kernel
  have hshort : answer (searching shadowedContext [".", "/b", "../c/", "/d"]) "run" shadowedWorld =
      answer (searching shadowedContext ["../c/", "/d"]) "run" shadowedWorld := by
    have hfirst := hrun.otherEntries shadowedWorld [] "." ["/b", "../c/", "/d"] (by decide +kernel)
    have hsecond := hrun.otherEntries shadowedWorld [] "/b" ["../c/", "/d"] (by decide +kernel)
    simp only [List.nil_append] at hfirst hsecond
    rw [hfirst, hsecond]
  have hlinked := find_firstMatch hnormal "../d/run"
  have hhere := find_firstMatch hnormal "./run"
  refine ⟨hnormal, hfound, hshort.symm.trans hfound, ?_, ?_⟩
  · rw [hlinked.anySearchPath (by decide)]
    exact ((hlinked.inPlace (by decide) _).1 _).2 ⟨by decide +kernel, by decide +kernel⟩
  · exact (hhere.inPlace (by decide) _).2.2 (by decide +kernel)

end Lookup

end Conch
