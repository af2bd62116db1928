-- SUMMARY: Overwriting and appending compose: what files hold after a session of redirected `echo`s.
import Conch.Interpreter
import Conch.Proofs.Stage.Echo

/-!
# Overwriting and appending

A session that takes redirected `echo`s one after the other leaves in each file the
lines that were written to it since it was last overwritten, after what was there if
it never was. Nothing else in the file system is different. Arguments are texts, so
each line has an encoding, and nothing is said of an argument that UTF-8 cannot encode.

Which `echo`s write to one file is a matter of where their paths lead. Paths with the
same parts lead to the same file: whether there are one or two slashes at the
beginning does not matter to a walk, though it does to the normal form of a path.
-/

namespace Conch

open FileSystem

namespace Interpreter

/-- Execute commands one after the other. Gives what each comes to, and the context and the world at the end. -/
def executeAll (programs : Programs) : Context → List Command → World → List Outcome × Context × World
  | ctx, [], w => ([], ctx, w)
  | ctx, c :: rest, w =>
    let ((outcome, middle), w₁) := execute programs ctx c w
    let (outcomes, after, w') := executeAll programs middle rest w₁
    (outcome :: outcomes, after, w')

end Interpreter

namespace Echo

open Interpreter

/-! ## What a file holds -/

/-- What a file holds after some `echo`s to it: the lines since it was last overwritten, after what was there
    if it never was. -/
inductive Holds (old : Bytes) : List Echo → Bytes → Prop
  | kept {echoes : List Echo} (h : ∀ e ∈ echoes, e.append = true) : Holds old echoes (old ++ echoes.flatMap line)
  | overwritten {earlier later : List Echo} {last : Echo} (hlast : last.append = false)
      (hlater : ∀ e ∈ later, e.append = true) :
    Holds old (earlier ++ last :: later) ((last :: later).flatMap line)

theorem holds_foldl (echoes : List Echo) (old : Bytes) : Holds old echoes (echoes.foldl leaves old) := by
  induction echoes generalizing old with
  | nil =>
    have hkept : Holds old [] (old ++ [].flatMap line) := .kept (by simp)
    simpa using hkept
  | cons e rest ih =>
    have hrest := ih (leaves old e)
    rw [List.foldl_cons]
    generalize rest.foldl leaves (leaves old e) = content at hrest ⊢
    cases hrest with
    | kept hall =>
      cases happend : e.append with
      | true =>
        have hkept : Holds old (e :: rest) (old ++ (e :: rest).flatMap line) := .kept (by simpa [happend] using hall)
        simpa [leaves, happend] using hkept
      | false =>
        have hover : Holds old ([] ++ e :: rest) ((e :: rest).flatMap line) := .overwritten happend hall
        simpa [leaves, happend] using hover
    | @overwritten earlier later last hlast hlater =>
      exact @Holds.overwritten old (e :: earlier) later last hlast hlater

theorem foldl_leaves_of_append {echoes : List Echo} (h : ∀ e ∈ echoes, e.append = true) (old : Bytes) :
    echoes.foldl leaves old = old ++ echoes.flatMap line := by
  induction echoes generalizing old with
  | nil => simp
  | cons e rest ih =>
    rw [List.forall_mem_cons] at h
    simp [ih h.2, leaves, h.1]

/-- What a file holds is determined. -/
theorem holds_iff {old content : Bytes} {echoes : List Echo} :
    Holds old echoes content ↔ content = echoes.foldl leaves old := by
  constructor
  · intro h
    cases h with
    | kept hall => exact (foldl_leaves_of_append hall old).symm
    | overwritten hlast hlater => simp [foldl_leaves_of_append hlater, leaves, hlast]
  · intro h
    subst h
    exact holds_foldl echoes old

/-! ## Echo after echo -/

variable {ctx : Context} {w : World}

/-- The `echo`s that write to a spot. -/
def ofSpot (ctx : Context) (fs : FileSystem) (spot : Spot) (echoes : List Echo) : List Echo :=
  echoes.filter fun e => fs.writingSpot (e.path ctx).toString = .ok spot

theorem ofSpot_cons {fs : FileSystem} {e : Echo} {spot : Spot} (h : fs.writingSpot (e.path ctx).toString = .ok spot)
    (s : Spot) (rest : List Echo) :
    ofSpot ctx fs s (e :: rest) = if s = spot then e :: ofSpot ctx fs s rest else ofSpot ctx fs s rest := by
  simp [ofSpot, List.filter_cons, h, eq_comm]

/-- What a session of `echo`s has done. -/
structure Ran (ctx : Context) (echoes : List Echo) (w w' : World) : Prop where
  targets : ∀ path spot old, w.files.Target path spot old →
    ∃ spot', w'.files.Target path spot' ((ofSpot ctx w.files spot echoes).foldl leaves old) ∧
      (ofSpot ctx w.files spot echoes ≠ [] ∨ (∃ i, spot = .found i) → ∃ i, spot' = .found i)
  spares : Spares (fun spot => ∃ e ∈ echoes, w.files.writingSpot (e.path ctx).toString = .ok spot) w.files w'.files
  out : w'.out = w.out
  err : w'.err = w.err

/-- One `echo` and then others. -/
theorem Ran.cons {e : Echo} {rest : List Echo} {w w₁ w' : World} {spot : Spot} {old : Bytes} (hlinked : w.files.Linked)
    (htarget : w.files.Target (e.path ctx).toString spot old)
    (htargets : ∀ e' ∈ rest, ∃ s old', w.files.Target (e'.path ctx).toString s old')
    (hwrote : w.files.Wrote spot (e.leaves old) w₁.files) (hout : w₁.out = w.out) (herr : w₁.err = w.err)
    (hran : Ran ctx rest w₁ w') : Ran ctx (e :: rest) w w' := by
  have hspot := htarget.writable hlinked
  -- Where the others lead after the first tells where they led before.
  have hleads : ∀ e' ∈ rest, ∃ s, w.files.Known s ∧ w.files.writingSpot (e'.path ctx).toString = .ok s ∧
      w₁.files.writingSpot (e'.path ctx).toString = .ok (w.files.moved spot s) := by
    intro e' he'
    obtain ⟨s, old', h⟩ := htargets e' he'
    exact ⟨s, (h.writable hlinked).there.known, h.leads, (hwrote.target hlinked hspot h).leads⟩
  refine ⟨?_, ?_, hran.out.trans hout, hran.err.trans herr⟩
  · intro path s old' h
    have hs := (h.writable hlinked).there.known
    obtain ⟨spot', h', hfound⟩ := hran.targets _ _ _ (hwrote.target hlinked hspot h)
    have hrest : ofSpot ctx w₁.files (w.files.moved spot s) rest = ofSpot ctx w.files s rest := by
      refine List.filter_congr fun e' he' => ?_
      obtain ⟨s', hs', hbefore, hafter⟩ := hleads e' he'
      simp [hbefore, hafter, moved_inj hs hs']
    rw [hrest] at h' hfound
    rw [ofSpot_cons htarget.leads]
    by_cases hsame : s = spot
    · subst hsame
      have hold : old = old' := by simpa [htarget.held] using h.held
      subst hold
      rw [if_pos rfl] at h' ⊢
      exact ⟨spot', h', fun _ => hfound (.inr ⟨_, moved_self s⟩)⟩
    · rw [if_neg hsame] at h' ⊢
      rw [moved_of_ne hsame] at hfound
      exact ⟨spot', h', hfound⟩
  · refine (hwrote.spares hspot).trans hlinked hran.spares ?_ ?_
    · intro s hs
      exact ⟨e, List.mem_cons_self, hs ▸ htarget.leads⟩
    · intro s hs hP
      obtain ⟨e', he', hafter⟩ := hP
      obtain ⟨s', hs', hbefore, hmoved⟩ := hleads e' he'
      rw [hmoved] at hafter
      cases eq_of_moved_eq hs (Except.ok.inj hafter)
      exact ⟨e', List.mem_cons_of_mem e he', hbefore⟩

theorem executeAll_ran (programs : Programs) (echoes : List Echo) (hlinked : w.files.Linked)
    (htargets : ∀ e ∈ echoes, ∃ spot old, w.files.Target (e.path ctx).toString spot old) :
    ∃ w', executeAll programs ctx (echoes.map fun e => .stage e.stage) w =
        (echoes.map fun _ => .status Builtin.success, ctx, w') ∧
      Ran ctx echoes w w' := by
  induction echoes generalizing w with
  | nil =>
    refine ⟨w, rfl, ?_, .refl _ _, rfl, rfl⟩
    intro path spot old htarget
    exact ⟨spot, htarget, by simp [ofSpot]⟩
  | cons e rest ih =>
    obtain ⟨spot, old, htarget⟩ := htargets e List.mem_cons_self
    have hothers := fun e' he' => htargets e' (List.mem_cons_of_mem e he')
    obtain ⟨w₁, hrun, hwrote, hout, herr⟩ := run_wrote programs hlinked htarget
    obtain ⟨w', hruns, hran⟩ := ih (hwrote.linked hlinked) fun e' he' => by
      obtain ⟨s, old', h⟩ := hothers e' he'
      exact ⟨_, _, hwrote.target hlinked (htarget.writable hlinked) h⟩
    refine ⟨w', ?_, hran.cons hlinked htarget hothers hwrote hout herr⟩
    have hfirst : execute programs ctx (.stage e.stage) w = ((.status Builtin.success, ctx), w₁) := hrun
    simp only [List.map_cons, executeAll, hfirst, hruns]

/-! ## Sessions -/

/-- The `echo`s whose paths have the same parts. -/
def sharing (ctx : Context) (e : Echo) (echoes : List Echo) : List Echo :=
  echoes.filter fun e' => (e'.path ctx).parts = (e.path ctx).parts

/-- What is different after a session of `echo`s, and what is not. -/
structure Composed (ctx : Context) (echoes : List Echo) (w w' : World) : Prop where
  /-- Each file has the lines since it was last overwritten, after what was there if it never was. -/
  contents : ∀ e ∈ echoes, ∀ spot old, w.files.Target (e.path ctx).toString spot old →
    ∃ content, Holds old (sharing ctx e echoes) content ∧ w'.files.fetch root (e.path ctx).toString = .ok content
  /-- No other file is different, and no name other than those that were free. -/
  spares : Spares (fun spot => ∃ e ∈ echoes, w.files.writingSpot (e.path ctx).toString = .ok spot) w.files w'.files
  /-- What can be read by a path that leads to no file of an `echo`. -/
  others : ∀ path spot, w.files.locate root path { followLast := true } = .ok spot →
    (∀ e ∈ echoes, w.files.writingSpot (e.path ctx).toString ≠ .ok spot) →
      w'.files.fetch root path = w.files.fetch root path
  out : w'.out = w.out
  err : w'.err = w.err

/-- Overwriting and appending compose: after any `echo`s to files that are there or can be made, none of them known
    by two names, all have succeeded, each file holds what was written to it since it was last overwritten, and
    nothing else is different. Arguments are texts, which UTF-8 can encode, and what an `echo` writes is the
    encoding of them, parted by single spaces, and a line end. -/
theorem echoes_compose (programs : Programs) (ctx : Context) (w : World) (echoes : List Echo) (hsound : w.files.Sound)
    (htargets : ∀ e ∈ echoes, ∃ spot old, w.files.Target (e.path ctx).toString spot old)
    (hlinks : ∀ e ∈ echoes, ∀ e' ∈ echoes,
      w.files.writingSpot (e.path ctx).toString = w.files.writingSpot (e'.path ctx).toString →
        (e.path ctx).parts = (e'.path ctx).parts) :
    ∃ w', executeAll programs ctx (echoes.map fun e => .stage e.stage) w =
        (echoes.map fun _ => .status 0, ctx, w') ∧
      Composed ctx echoes w w' ∧
      ∀ e ∈ echoes, text? e.line = some (" ".intercalate e.args ++ "\n") := by
  obtain ⟨w', hruns, hran⟩ := executeAll_ran programs echoes hsound.linked htargets
  refine ⟨w', hruns, ⟨?_, hran.spares, ?_, hran.out, hran.err⟩, fun e _ => text?_utf8Line _⟩
  · intro e he spot old htarget
    have hsharing : sharing ctx e echoes = ofSpot ctx w.files spot echoes := by
      refine List.filter_congr fun e' he' => ?_
      obtain ⟨spot', old', htarget'⟩ := htargets e' he'
      rw [decide_eq_decide]
      constructor
      · intro hparts
        rw [htarget'.leads, Target.spot_eq hparts htarget' htarget]
      · intro hleads
        exact hlinks e' he' e he (hleads.trans htarget.leads.symm)
    obtain ⟨spot', htarget', hfound⟩ := hran.targets _ _ _ htarget
    have hmember : e ∈ ofSpot ctx w.files spot echoes := by
      simp [ofSpot, he, htarget.leads]
    obtain ⟨i, hi⟩ := hfound (.inl (List.ne_nil_of_mem hmember))
    exact ⟨_, hsharing ▸ holds_iff.2 rfl, htarget'.fetch hi⟩
  · intro path spot hlocate hnot
    refine hran.spares.fetch hsound.linked hlocate ?_
    intro hP
    obtain ⟨e, he, hleads⟩ := hP
    exact hnot e he hleads

/-- A world with the file `/x/f` and nothing else. -/
def plainWorld : World :=
  { files := ⟨#[.dir 0 [("x", 1)], .dir 0 [("f", 2)], .file (utf8Line "old") false]⟩ }

/-- A session in `/x`. -/
def innerContext : Context := ⟨⟨.root, ["x"]⟩, .rootPath, []⟩

/-- Lines for `/x/f` under three names, and one for `/x/g`. -/
def sampleEchoes : List Echo :=
  [⟨["a"], "f", true⟩, ⟨[], "g", true⟩, ⟨["b", "c"], "./y/../f", false⟩, ⟨["d"], "//x/f", true⟩]

/-- What was there and the first line for `/x/f` are gone, and `/x/g` has an empty line. -/
theorem echoes_compose_under_several_names :
    ∃ w', executeAll (fun _ => none) innerContext (sampleEchoes.map fun e => .stage e.stage) plainWorld =
        ([.status 0, .status 0, .status 0, .status 0], innerContext, w') ∧
      Composed innerContext sampleEchoes plainWorld w' ∧
      w'.files.fetch root "/x/f" = .ok (utf8Line "b c" ++ utf8Line "d") ∧
      w'.files.fetch root "/x/g" = .ok (utf8Line "") := by
  have htargets : ∀ e ∈ sampleEchoes, ∃ spot old, plainWorld.files.Target (e.path innerContext).toString spot old := by
    simp only [sampleEchoes, List.forall_mem_cons]
    have hold : plainWorld.files.held? (.found 2) = some (utf8Line "old") := rfl
    refine ⟨⟨.found 2, _, ?_, ?_, hold⟩, ⟨.missing 1 "g", [], ?_, ?_, rfl⟩, ⟨.found 2, _, ?_, ?_, hold⟩,
      ⟨.found 2, _, ?_, ?_, hold⟩, by simp⟩
    all_goals decide +kernel
  obtain ⟨w', hruns, hcomposed, -⟩ := echoes_compose (fun _ => none) innerContext plainWorld sampleEchoes (by decide)
    htargets (by decide +kernel)
  have hfiles : w'.files =
      (executeAll (fun _ => none) innerContext (sampleEchoes.map fun e => .stage e.stage) plainWorld).2.2.files := by
    rw [hruns]
  refine ⟨w', hruns, hcomposed, ?_, ?_⟩
  all_goals
    rw [hfiles]
    decide +kernel

/-- `echo a > /x/g` -/
def slashOnce : Echo := ⟨["a"], "/x/g", false⟩

/-- `echo b > //x/g` -/
def slashTwice : Echo := ⟨["b"], "//x/g", false⟩

/-- One leading slash or two make different paths in normal form, but the same file: what was written by one path
    is overwritten by the other, so that the file does not hold what was written by its own path. -/
theorem slashes_name_one_file :
    slashOnce.path innerContext ≠ slashTwice.path innerContext ∧
    plainWorld.files.Sound ∧
    plainWorld.files.Target (slashOnce.path innerContext).toString (.missing 1 "g") [] ∧
    plainWorld.files.Target (slashTwice.path innerContext).toString (.missing 1 "g") [] ∧
    ∃ w', executeAll (fun _ => none) innerContext [.stage slashOnce.stage, .stage slashTwice.stage] plainWorld =
        ([.status 0, .status 0], innerContext, w') ∧
      w'.files.fetch root (slashOnce.path innerContext).toString = .ok (utf8Line "b") ∧
      ¬ Holds [] ([slashOnce, slashTwice].filter fun e => e.path innerContext = slashOnce.path innerContext)
        (utf8Line "b") := by
  have honce : plainWorld.files.Target (slashOnce.path innerContext).toString (.missing 1 "g") [] :=
    ⟨by decide +kernel, by decide +kernel, rfl⟩
  have htwice : plainWorld.files.Target (slashTwice.path innerContext).toString (.missing 1 "g") [] :=
    ⟨by decide +kernel, by decide +kernel, rfl⟩
  have hsound : plainWorld.files.Sound := by decide
  have htargets : ∀ e ∈ [slashOnce, slashTwice], ∃ spot old,
      plainWorld.files.Target (e.path innerContext).toString spot old := by
    simpa using ⟨⟨_, _, honce⟩, ⟨_, _, htwice⟩⟩
  obtain ⟨w', hruns, -⟩ := executeAll_ran (fun _ => none) [slashOnce, slashTwice] hsound.linked htargets
  simp only [List.map_cons, List.map_nil] at hruns
  have hfiles : w'.files = (executeAll (fun _ => none) innerContext [.stage slashOnce.stage, .stage slashTwice.stage]
      plainWorld).2.2.files := congrArg (·.2.2.files) hruns.symm
  refine ⟨by decide +kernel, hsound, honce, htwice, w', hruns, ?_, ?_⟩
  · rw [hfiles]
    decide +kernel
  · rw [holds_iff]
    decide +kernel

end Echo

end Conch
