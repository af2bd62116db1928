-- SUMMARY: The command `type` copies files to its output and tells of the others, up to a name that is too long.
import Conch.Proofs.Stage.Reports

/-!
# Copying files

`type` looks at its operands one after the other. What it finds decides what it reports:
the content of a file goes to the output, and a line goes to the diagnostics for anything
else. What is found does not depend on what was reported before, since no operand is the
file of an output.

A name that is too long ends the command, so that no operand after it is looked at.
-/

namespace Conch

open StageM FileSystem World

/-! ## What is found -/

namespace FileSystem

variable {fs : FileSystem}

/-- Looking for something fails for no reason but these. -/
def RefusesLook (e : Errno) : Prop :=
  e.meansAbsent = true ∨ e = .nameTooLong

theorem walkWith_refused {follow : Ino → List String → Except Errno Spot} {how : Walk} (hhow : how.creating = false)
    (hfollow : ∀ here names e, follow here names = .error e → RefusesLook e) {here : Ino} {names : List String}
    {e : Errno} (h : fs.walkWith follow how here names = .error e) : RefusesLook e := by
  induction names generalizing here with
  | nil => cases h
  | cons name rest ih =>
    unfold walkWith at h
    rw [hhow] at h
    simp only [Bool.false_and, Bool.false_eq_true, if_false] at h
    split at h
    · split at h
      · exact ih h
      split at h
      · exact ih h
      split at h
      · cases h
        exact .inr rfl
      split at h
      · split at h
        · cases h
        · cases h
          exact .inl rfl
      split at h
      · split at h
        · cases h
        split at h
        · cases h
          exact .inl rfl
        · exact hfollow _ _ _ h
      · exact ih h
    · cases h
      exact .inl rfl

theorem walk_refused {how : Walk} (hhow : how.creating = false) {links : Nat} {here : Ino} {names : List String}
    {e : Errno} (h : fs.walk how links here names = .error e) : RefusesLook e := by
  induction links generalizing here names e with
  | zero =>
    refine walkWith_refused hhow ?_ h
    rintro _ _ _ ⟨⟩
    exact .inl rfl
  | succ links ih => exact walkWith_refused hhow (fun _ _ _ => ih) h

/-- Whether something is at a path can be found out unless a name is too long. -/
theorem look_eq_error {path : String} {e : Errno} (h : fs.look path = .error e) : e = .nameTooLong := by
  unfold look at h
  split at h
  · cases h
  rename_i cause hstat
  split at h
  · cases h
  rename_i hpresent
  cases h
  have hcause : RefusesLook e := by
    unfold stat find at hstat
    unfold locate at hstat
    split at hstat
    · rename_i hfind
      split at hfind
      · cases hfind
      · cases hfind
        cases hstat
        exact .inl rfl
      · rename_i hlocate
        cases hfind
        cases hstat
        split at hlocate
        · cases hlocate
          exact .inl rfl
        split at hlocate
        · cases hlocate
          exact .inr rfl
        · exact walk_refused rfl hlocate
    · split at hstat
      · cases hstat
      · cases hstat
        exact .inl rfl
  exact hcause.resolve_left hpresent

end FileSystem

/-- What becomes of an operand of `type`. -/
inductive Finding where
  /-- A file is copied. -/
  | copied (data : Bytes)
  /-- A line is told, and the operand is skipped. -/
  | skipped (line : String)
  /-- The path is too long to look at, which ends the command. -/
  | stopped (path : String)
  deriving DecidableEq, Repr

namespace Finding

/-- What is found in a file that is to be copied. -/
def ofContent (name : String) : Except Errno Bytes → Finding
  | .ok data => .copied data
  | .error cause => .skipped s!"type: {name}: {cause.text}"

/-- What is found at an operand. -/
def ofOperand (ctx : Context) (fs : FileSystem) (name : String) : Finding :=
  let path := (ctx.resolve (Path.ofString name)).toString
  if hasNul path then .skipped s!"type: {name}: No such file or directory"
  else
    match fs.look path with
    | .error _ => .stopped path
    | .ok none => .skipped s!"type: {name}: No such file or directory"
    | .ok (some (.dir, _)) => .skipped s!"type: {name}: Is a directory"
    | .ok (some (_, content)) => ofContent name content

def IsCopied : Finding → Prop
  | copied _ => True
  | _ => False

instance : DecidablePred IsCopied := fun f => by
  cases f <;> unfold IsCopied <;> infer_instance

def IsStopped : Finding → Prop
  | stopped _ => True
  | _ => False

instance : DecidablePred IsStopped := fun f => by
  cases f <;> unfold IsStopped <;> infer_instance

/-- What is reported of an operand, and where. -/
def report : Finding → Report
  | copied data => ⟨.stdout, data⟩
  | skipped line => ⟨.stderr, utf8Line line⟩
  | stopped path => ⟨.stderr, utf8Line (Builtin.faultLine .type (.system .nameTooLong path))⟩

/-- Whether an operand was copied, if that was tried. -/
def result : Finding → Except Fault Bool
  | copied _ => .ok true
  | skipped _ => .ok false
  | stopped path => .error (.system .nameTooLong path)

/-- What is reported before it is known that the command ends. -/
def reports : Finding → List Report
  | stopped _ => []
  | f => [f.report]

/-- The operands that are reported on: all up to the first that ends the command. -/
def heeded : List Finding → List Finding
  | [] => []
  | f :: rest => if f.IsStopped then [f] else f :: heeded rest

end Finding

namespace Builtin

open Streams

variable {base σ : Streams} {outlet : Stream → Outlet} {old : Stream → Bytes} {log : List Report} {w₀ w : World}
  {ctx : Context}

/-- The kind of what is at a path, as far as it can be found out. -/
theorem kindOf?_runs (path : Path) :
    runs (kindOf? path) (fun result after w' => after = σ ∧ w' = w ∧
      result = if hasNul path.toString then .ok none
        else match w.files.look path.toString with
          | .ok found => .ok (found.map (·.1))
          | .error cause => .error (.system cause path.toString)) σ w := by
  unfold kindOf?
  split
  · exact (runs_pure _).2 ⟨rfl, rfl, rfl⟩
  · rw [runs_call_bind]
    simp only [World.perform]
    cases hstat : w.files.stat FileSystem.root path.toString true with
    | ok kind => simp [FileSystem.look, hstat]
    | error cause => cases habsent : cause.meansAbsent <;> simp [FileSystem.look, hstat, habsent]

/-- How far the operands were reported on, and what has come of it. -/
inductive Copied (findings : List Finding) : List Report → Except Fault Bool → Prop
  | through (hall : Finding.heeded findings = findings) :
    Copied findings (findings.map Finding.report) (.ok (findings.all fun f => f.IsCopied))
  | stopped {before : List Finding} {path : String} (hbefore : Finding.heeded findings = before ++ [.stopped path]) :
    Copied findings (before.map Finding.report) (.error (.system .nameTooLong path))

theorem Copied.cons {f : Finding} {findings : List Finding} {reports : List Report} {result : Except Fault Bool}
    (hf : ¬ f.IsStopped) (h : Copied findings reports result) :
    Copied (f :: findings) (f.report :: reports) (result.map (decide f.IsCopied && ·)) := by
  cases h with
  | through hall => exact .through (by rw [Finding.heeded, if_neg hf, hall])
  | @stopped before path hbefore =>
    have hnext : Finding.heeded (f :: findings) = (f :: before) ++ [.stopped path] := by
      rw [Finding.heeded, if_neg hf, hbefore, List.cons_append]
    exact .stopped hnext

/-- The streams of a stage can be used: input can be read if there is a file for it, and output and diagnostics are
    taken and come to different places. -/
structure Willing (base : Streams) (w : World) (o e : Outlet) (out err : Bytes) : Prop where
  input : runs stdinHandle (fun result _ _ => ∃ handle, result = .ok handle) base w
  output : base.Takes w .stdout o out
  diagnostics : base.Takes w .stderr e err
  consoles : ∀ c, o = .console c → e ≠ .console c
  files : ∀ p p', base.FileAt .stdout p → base.FileAt .stderr p' → w.files.Apart p p' writing

theorem Willing.outputs {o e : Outlet} {out err : Bytes} (h : Willing base w o e out err) (hunused : base.Unused)
    (hlinked : w.files.Linked) : Outputs base (forBoth o e) (forBoth out err) [] w base w := by
  refine .start hunused hlinked ?_ ?_
  · intro st st' p p' hne hp hp' hst hst'
    cases st <;> cases st' <;> first
      | exact h.files p p' hp hp'
      | exact (h.files p' p hp' hp).symm
      | contradiction
  · intro st hst
    cases st with
    | stdin => exact absurd rfl hst
    | stdout => exact h.output
    | stderr => exact h.diagnostics

/-- What `type` finds at its operands before it changes anything. -/
def findings (ctx : Context) (fs : FileSystem) (names : List String) : List Finding :=
  names.map (Finding.ofOperand ctx fs)

/-- What `type` reports, in order. -/
def reports (ctx : Context) (fs : FileSystem) (names : List String) : List Report :=
  (Finding.heeded (findings ctx fs names)).map Finding.report

def copyContext : Context := ⟨.rootPath, .rootPath, []⟩

end Builtin

end Conch
