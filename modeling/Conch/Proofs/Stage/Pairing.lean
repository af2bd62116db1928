-- SUMMARY: What a stage does is done alike in worlds alike, call by call.
import Conch.Launch
import Conch.Proofs.Pipeline.Pipes
import Conch.Proofs.System.Replies
import Mathlib.Data.List.Forall2

/-!
# Stages in worlds alike

Two jobs are paired if they make tied calls, one after the other, and come to
related results, in whatever worlds that are alike. Between two calls the worlds
may change as long as they stay alike, and so the pairing also says what one job
does alone in a world and the other in the company of others.

Everything that a stage does on its way to a built-in command, a diagnostic or a
process is paired with itself. What a process is started with may differ: only
whether it starts is the same.
-/

namespace Conch

variable {α β γ δ : Type} {F : Touch → Prop} {T T' : Ties}

/-! ## Jobs -/

namespace Job

/-- Two jobs make tied calls, none of the second on a pipe, and come to related results. -/
def Paired (F : Touch → Prop) (A : Ties → α → β → Prop) : Ties → Job α → Job β → Prop
  | T, done a, done b => A T a b
  | T, ask c resume, ask c' resume' =>
    ¬ c'.OnPipe ∧ ∀ T₁, T.Le T₁ → ∀ v u, World.Alike F T₁ v u → (∀ t ∈ u.touches c', F t) →
      ∃ T₂, T₁.Le T₂ ∧ World.Alike F T₂ (v.perform c).2 (u.perform c').2 ∧
        Paired F A T₂ (resume (v.perform c).1) (resume' (u.perform c').1)
  | _, _, _ => False

variable {A : Ties → α → β → Prop} {B : Ties → γ → δ → Prop} {j : Job α} {k : Job β}

theorem paired_done_iff {a : α} {b : β} : Paired F A T (done a) (done b) ↔ A T a b := Iff.rfl

theorem paired_ask_iff {c c' : Call} {resume : c.Reply → Job α} {resume' : c'.Reply → Job β} :
    Paired F A T (ask c resume) (ask c' resume') ↔
      ¬ c'.OnPipe ∧ ∀ T₁, T.Le T₁ → ∀ v u, World.Alike F T₁ v u → (∀ t ∈ u.touches c', F t) →
        ∃ T₂, T₁.Le T₂ ∧ World.Alike F T₂ (v.perform c).2 (u.perform c').2 ∧
          Paired F A T₂ (resume (v.perform c).1) (resume' (u.perform c').1) := Iff.rfl

theorem not_paired_done_ask {a : α} {c : Call} {resume : c.Reply → Job β} :
    ¬ Paired F A T (done a) (ask c resume) := id

theorem not_paired_ask_done {b : β} {c : Call} {resume : c.Reply → Job α} :
    ¬ Paired F A T (ask c resume) (done b) := id

theorem paired_pure {a : α} {b : β} (h : A T a b) : Paired F A T (pure a) (pure b) := h

theorem paired_call {c c' : Call} {A : Ties → c.Reply → c'.Reply → Prop} (h : CallsTied F T c c' A)
    (hpipe : ¬ c'.OnPipe) : Paired F A T (call c) (call c') :=
  ⟨hpipe, fun _ hle _ _ halike hF => h hle halike hF⟩

theorem paired_bind {f : α → Job γ} {g : β → Job δ} (h : Paired F A T j k)
    (hf : ∀ T', T.Le T' → ∀ a b, A T' a b → Paired F B T' (f a) (g b)) : Paired F B T (j >>= f) (k >>= g) := by
  show Paired F B T (j.bind f) (k.bind g)
  induction j generalizing T k with
  | done a =>
    cases k with
    | done b => exact hf T (.refl T) a b h
    | ask c' resume' => exact h.elim
  | ask c resume ih =>
    cases k with
    | done b => exact h.elim
    | ask c' resume' =>
      refine ⟨h.1, fun T₁ hle v u halike hF => ?_⟩
      obtain ⟨T₂, hle₂, halike₂, hpaired⟩ := h.2 T₁ hle v u halike hF
      refine ⟨T₂, hle₂, halike₂, ih _ hpaired ?_⟩
      exact fun T' hle' => hf T' ((hle.trans hle₂).trans hle')

end Job

/-! ## Stages -/

/-- Results that do not depend on numbers are the same. -/
def Identical (_ : Ties) (a b : α) : Prop := a = b

/-- The streams of a stage in both worlds. Which files are to be closed does not matter. -/
structure StreamsTied (T : Ties) (σ τ : Streams) : Prop where
  directory : σ.directory = τ.directory
  redirects : σ.redirects = τ.redirects
  toPipe : σ.toPipe = false
  toPipe' : τ.toPipe = false
  stdin : Option.Rel T.file σ.stdin τ.stdin
  stdout : Option.Rel T.file σ.stdout τ.stdout
  stderr : Option.Rel T.file σ.stderr τ.stderr
  unwritten : List.Forall₂ (fun p q => T.file p.1 q.1 ∧ p.2 = q.2) σ.unwritten τ.unwritten
  stderrFailed : σ.stderrFailed = τ.stderrFailed

theorem StreamsTied.mono {σ τ : Streams} (hle : T.Le T') (h : StreamsTied T σ τ) : StreamsTied T' σ τ :=
  { h with
    stdin := optionRel_mono (fun _ _ => hle.file) h.stdin
    stdout := optionRel_mono (fun _ _ => hle.file) h.stdout
    stderr := optionRel_mono (fun _ _ => hle.file) h.stderr
    unwritten := h.unwritten.imp fun _ _ hp => ⟨hle.file hp.1, hp.2⟩ }

theorem streamsTied_ofStage (T : Ties) (s : Stage) (directory : Path) :
    StreamsTied T (.ofStage s directory false) (.ofStage s directory false) :=
  ⟨rfl, rfl, rfl, rfl, .none, .none, .none, .nil, rfl⟩

namespace StageM

/-- What two stages do is paired, and comes to the same fault or to related results. -/
def Paired (F : Touch → Prop) (A : Ties → α → β → Prop) (T : Ties) (x : StageM α) (y : StageM β) : Prop :=
  ∀ T₁, T.Le T₁ → ∀ σ τ, StreamsTied T₁ σ τ →
    Job.Paired F (fun T₂ r r' => ExceptTied (A T₂) r.1 r'.1 ∧ StreamsTied T₂ r.2 r'.2) T₁ (x σ) (y τ)

variable {A : Ties → α → β → Prop} {B : Ties → γ → δ → Prop} {x : StageM α} {y : StageM β}

theorem Paired.job (h : Paired F A T x y) {σ τ : Streams} (hσ : StreamsTied T σ τ) :
    Job.Paired F (fun T₂ r r' => ExceptTied (A T₂) r.1 r'.1 ∧ StreamsTied T₂ r.2 r'.2) T (x σ) (y τ) :=
  h T (.refl T) σ τ hσ

theorem paired_pure {a : α} {b : β} (h : ∀ T', T.Le T' → A T' a b) : Paired F A T (pure a) (pure b) :=
  fun T₁ hle _ _ hσ => ⟨.ok (h T₁ hle), hσ⟩

theorem paired_same (a : α) : Paired F Identical T (pure a) (pure a) :=
  paired_pure fun _ _ => rfl

theorem paired_throw (fault : Fault) : Paired F A T (throw fault) (throw fault) :=
  fun _ _ _ _ hσ => ⟨.error fault, hσ⟩

theorem paired_bind {f : α → StageM γ} {g : β → StageM δ} (h : Paired F A T x y)
    (hf : ∀ T', T.Le T' → ∀ a b, A T' a b → Paired F B T' (f a) (g b)) : Paired F B T (x >>= f) (y >>= g) := by
  intro T₁ hle σ τ hσ
  refine Job.paired_bind (h T₁ hle σ τ hσ) ?_
  rintro T₂ hle₂ ⟨r, σ'⟩ ⟨r', τ'⟩ ⟨hr, hσ'⟩
  cases hr with
  | error fault => exact ⟨.error fault, hσ'⟩
  | ok hab => exact hf T₂ (hle.trans hle₂) _ _ hab T₂ (.refl T₂) σ' τ' hσ'

theorem paired_bind_same {x y : StageM α} {f : α → StageM γ} {g : α → StageM δ} (h : Paired F Identical T x y)
    (hf : ∀ T', T.Le T' → ∀ a, Paired F B T' (f a) (g a)) : Paired F B T (x >>= f) (y >>= g) := by
  refine paired_bind h fun T' hle a b hab => ?_
  cases hab
  exact hf T' hle a

theorem paired_throw_bind (fault : Fault) {f : α → StageM γ} {g : β → StageM δ} :
    Paired F B T ((throw fault : StageM α) >>= f) ((throw fault : StageM β) >>= g) :=
  paired_bind (A := fun _ _ _ => False) (paired_throw fault) fun _ _ _ _ hfalse => hfalse.elim

theorem paired_get_bind {f g : Streams → StageM α}
    {A : Ties → α → α → Prop} (hf : ∀ T', T.Le T' → ∀ σ τ, StreamsTied T' σ τ → Paired F A T' (f σ) (g τ)) :
    Paired F A T (get >>= f) (get >>= g) :=
  fun T₁ hle σ τ hσ => hf T₁ hle σ τ hσ T₁ (.refl T₁) σ τ hσ

theorem paired_set {σ τ : Streams} (h : ∀ T', T.Le T' → StreamsTied T' σ τ) : Paired F Identical T (set σ) (set τ) :=
  fun T₁ hle _ _ _ => ⟨.ok rfl, h T₁ hle⟩

theorem paired_modify {f g : Streams → Streams}
    (h : ∀ T', T.Le T' → ∀ σ τ, StreamsTied T' σ τ → StreamsTied T' (f σ) (g τ)) :
    Paired F Identical T (modify f) (modify g) :=
  fun T₁ hle σ τ hσ => ⟨.ok rfl, h T₁ hle σ τ hσ⟩

theorem paired_liftM {j : Job α} {k : Job β} (h : ∀ T', T.Le T' → Job.Paired F A T' j k) :
    Paired F A T (liftM j) (liftM k) := by
  intro T₁ hle σ τ hσ
  show Job.Paired F _ T₁ ((j >>= fun a => pure (a, σ)) >>= fun p => pure (Except.ok p.1, p.2))
    ((k >>= fun b => pure (b, τ)) >>= fun p => pure (Except.ok p.1, p.2))
  refine Job.paired_bind (Job.paired_bind (h T₁ hle) (B := fun T₂ r r' => A T₂ r.1 r'.1 ∧ StreamsTied T₂ r.2 r'.2)
    fun T₂ hle₂ a b hab => ⟨hab, hσ.mono hle₂⟩) ?_
  exact fun T₂ _ r r' hr => ⟨.ok hr.1, hr.2⟩

theorem paired_call {c c' : Call} {A : Ties → c.Reply → c'.Reply → Prop} (h : CallsTied F T c c' A)
    (hpipe : ¬ c'.OnPipe) : Paired F A T (call c) (call c') :=
  paired_liftM fun _ hle => Job.paired_call (fun hle₁ => h (hle.trans hle₁)) hpipe

theorem paired_attempt (h : Paired F A T x y) :
    Paired F (fun T r r' => ExceptTied (A T) r r') T (attempt x) (attempt y) := by
  intro T₁ hle σ τ hσ
  refine Job.paired_bind (h T₁ hle σ τ hσ) ?_
  exact fun T₂ _ r r' hr => ⟨.ok hr.1, hr.2⟩

end StageM

-- As with `Job.wp`, from here on the rules are used.
attribute [irreducible] Job.Paired StageM.Paired

/-! ## Streams -/

namespace Streams

open StageM

theorem openOwned_paired (name : String) (mode : FileSystem.Mode) :
    Paired F (fun T h h' => T.file h h') T (openOwned name mode) (openOwned name mode) := by
  refine paired_get_bind fun T _ σ τ hσ => ?_
  -- The streams that were looked at first are written back, with ties that may be older than the file.
  have hown : ∀ T', T.Le T' → ∀ h h', T'.file h h' → Paired F (fun T h h' => T.file h h') T'
      (do set { σ with directory := τ.directory, owned := h :: σ.owned }; return h)
      (do set { τ with owned := h' :: τ.owned }; return h') := by
    intro T' hle h h' hh
    refine paired_bind_same (paired_set fun T'' hle'' => ?_) fun T'' hle'' _ => ?_
    · exact { hσ.mono (hle.trans hle'') with directory := rfl }
    · exact paired_pure fun _ hle => hle.file (hle''.file hh)
  dsimp only
  rw [hσ.directory]
  split
  · exact paired_throw_bind _
  refine paired_bind_same (paired_call (stat_tied T.root _ _) id) fun T₁ hle₁ reply => ?_
  split
  · exact paired_throw_bind _
  refine paired_bind (paired_call (openFile_tied T₁.root _ _) id) fun T₂ hle₂ opened opened' hopened => ?_
  cases hopened with
  | error cause => exact paired_throw _
  | ok hh =>
    dsimp only
    split
    · refine paired_bind_same (paired_call (seekEnd_tied hh) id) fun T₃ hle₃ reply => ?_
      cases reply with
      | error cause =>
        exact paired_bind_same (paired_call (close_tied (hle₃.file hh)) id) fun _ _ _ => paired_throw_bind _
      | ok done => exact hown T₃ ((hle₁.trans hle₂).trans hle₃) _ _ (hle₃.file hh)
    · exact hown T₂ (hle₁.trans hle₂) _ _ hh

/-- Open a file and keep it as the file of a stream. -/
theorem openFor_paired (name : String) (mode : FileSystem.Mode) {keep : Handle → Streams → Streams}
    (hkeep : ∀ T h h' σ τ, T.file h h' → StreamsTied T σ τ → StreamsTied T (keep h σ) (keep h' τ)) :
    Paired F (fun T o o' => Option.Rel T.file o o') T
      (do let h ← openOwned name mode; modify (keep h); return some h)
      (do let h ← openOwned name mode; modify (keep h); return some h) := by
  refine paired_bind (openOwned_paired name mode) fun T₁ _ h h' hh => ?_
  refine paired_bind_same (paired_modify fun T' hle σ τ hσ => hkeep T' h h' σ τ (hle.file hh) hσ) fun T₂ hle₂ _ => ?_
  exact paired_pure fun _ hle => .some (hle.file (hle₂.file hh))

theorem stdinHandle_paired :
    Paired F (fun T o o' => Option.Rel T.file o o') T stdinHandle stdinHandle := by
  refine paired_get_bind fun T _ σ τ hσ => ?_
  have hstdin := hσ.stdin
  rw [hσ.redirects]
  generalize σ.stdin = opened at hstdin ⊢
  generalize τ.stdin = opened' at hstdin ⊢
  cases τ.redirects.stdin with
  | none => exact paired_pure fun _ _ => .none
  | some name =>
    cases hstdin with
    | some hh => exact paired_pure fun _ hle => .some (hle.file hh)
    | none => exact openFor_paired name _ fun T h h' σ τ hh hσ => { hσ with stdin := .some hh }

theorem stdoutHandle_paired :
    Paired F (fun T o o' => Option.Rel T.file o o') T stdoutHandle stdoutHandle := by
  refine paired_get_bind fun T _ σ τ hσ => ?_
  have hstdout := hσ.stdout
  rw [hσ.redirects]
  generalize σ.stdout = opened at hstdout ⊢
  generalize τ.stdout = opened' at hstdout ⊢
  cases τ.redirects.stdout with
  | none => exact paired_pure fun _ _ => .none
  | some name =>
    cases hstdout with
    | some hh => exact paired_pure fun _ hle => .some (hle.file hh)
    | none => exact openFor_paired name _ fun T h h' σ τ hh hσ => { hσ with stdout := .some hh }

/-- Sinks that stand for the same place, neither of them a pipe. -/
inductive SinkTied (T : Ties) : Sink → Sink → Prop
  | file {h h' : Handle} (hh : T.file h h') : SinkTied T (.file h) (.file h')
  | out : SinkTied T .out .out
  | err : SinkTied T .err .err

theorem writeNow_paired {sink sink' : Sink} (hsink : SinkTied T sink sink') (data : Bytes) :
    Paired F Identical T (writeNow sink data) (writeNow sink' data) := by
  have hcall : Paired F Identical T (call (.write sink data)) (call (.write sink' data)) := by
    cases hsink with
    | file hh => exact paired_call (write_file_tied hh data) id
    | out => exact paired_call (write_out_tied data) id
    | err => exact paired_call (write_err_tied data) id
  refine paired_bind_same hcall fun T₁ _ reply => ?_
  split
  · exact paired_same _
  · exact paired_throw _
  · exact paired_throw _

/-- What one file has refused is the same on both sides, since no file stands for two. -/
theorem lookup_unwritten {h h' : Handle} (hh : T.file h h') {waiting waiting' : List (Handle × Bytes)}
    (hwaiting : List.Forall₂ (fun p q => T.file p.1 q.1 ∧ p.2 = q.2) waiting waiting') :
    waiting.lookup h = waiting'.lookup h' := by
  induction hwaiting with
  | nil => rfl
  | @cons p q rest rest' hpq hrest ih =>
    obtain ⟨g, data⟩ := p
    obtain ⟨g', data'⟩ := q
    obtain ⟨hg, rfl⟩ := hpq
    rw [List.lookup_cons, List.lookup_cons, ih]
    have hsame : (h == g) = (h' == g') := by
      rw [Bool.eq_iff_iff, beq_iff_eq, beq_iff_eq]
      exact T.file_inj hh hg
    rw [hsame]

theorem filter_unwritten {h h' : Handle} (hh : T.file h h') {waiting waiting' : List (Handle × Bytes)}
    (hwaiting : List.Forall₂ (fun p q => T.file p.1 q.1 ∧ p.2 = q.2) waiting waiting') :
    List.Forall₂ (fun p q => T.file p.1 q.1 ∧ p.2 = q.2) (waiting.filter (·.1 ≠ h)) (waiting'.filter (·.1 ≠ h')) := by
  induction hwaiting with
  | nil => exact .nil
  | @cons p q rest rest' hpq hrest ih =>
    have hsame : p.1 ≠ h ↔ q.1 ≠ h' := not_congr (T.file_inj hpq.1 hh)
    rw [List.filter_cons, List.filter_cons]
    by_cases hp : p.1 ≠ h
    · rw [if_pos (decide_eq_true hp), if_pos (decide_eq_true (hsame.1 hp))]
      exact .cons hpq ih
    · rw [if_neg (by simpa using hp), if_neg (by simpa using fun hq => hp (hsame.2 hq))]
      exact ih

theorem setUnwritten_paired {h h' : Handle} (hh : T.file h h') (data : Bytes) :
    Paired F Identical T (setUnwritten h data) (setUnwritten h' data) := by
  refine paired_modify fun T₁ hle σ τ hσ => ?_
  exact { hσ with unwritten := .cons ⟨hle.file hh, rfl⟩ (filter_unwritten (hle.file hh) hσ.unwritten) }

theorem writeFile_paired {h h' : Handle} (hh : T.file h h') (data : Bytes) :
    Paired F Identical T (writeFile h data) (writeFile h' data) := by
  refine paired_bind_same (writeNow_paired (.file hh) []) fun T₁ hle₁ _ => ?_
  refine paired_get_bind fun T₂ hle₂ σ τ hσ => ?_
  have hh := hle₂.file (hle₁.file hh)
  dsimp only
  rw [lookup_unwritten hh hσ.unwritten]
  split
  · refine paired_bind_same (setUnwritten_paired hh _) fun T₃ hle₃ _ => ?_
    refine paired_bind_same (writeNow_paired (.file (hle₃.file hh)) _) fun T₄ hle₄ _ => ?_
    exact setUnwritten_paired (hle₄.file (hle₃.file hh)) _
  · refine paired_bind_same (writeNow_paired (.file hh) _) fun T₃ hle₃ _ => ?_
    refine paired_bind_same (setUnwritten_paired (hle₃.file hh) _) fun T₄ hle₄ _ => ?_
    exact writeNow_paired (.file (hle₄.file (hle₃.file hh))) _

theorem writeTo_paired {sink sink' : Sink} (hsink : SinkTied T sink sink') (data : Bytes) :
    Paired F Identical T (writeTo sink data) (writeTo sink' data) := by
  cases hsink with
  | file hh => exact writeFile_paired hh data
  | out => exact writeNow_paired .out data
  | err => exact writeNow_paired .err data

theorem stderrHandle_paired :
    Paired F (fun T o o' => Option.Rel T.file o o') T stderrHandle stderrHandle := by
  refine paired_get_bind fun T _ σ τ hσ => ?_
  have hstderr := hσ.stderr
  rw [hσ.redirects, hσ.stderrFailed]
  generalize σ.stderr = opened at hstderr ⊢
  generalize τ.stderr = opened' at hstderr ⊢
  cases τ.redirects.stderr with
  | none => exact paired_pure fun _ _ => .none
  | some name =>
    dsimp only
    split
    · exact paired_pure fun _ _ => .none
    cases hstderr with
    | some hh => exact paired_pure fun _ hle => .some (hle.file hh)
    | none =>
      refine paired_bind (paired_attempt (openOwned_paired name _)) fun T₁ _ result result' hresult => ?_
      cases hresult with
      | error fault =>
        refine paired_bind_same (paired_modify fun T' _ σ τ hσ => { hσ with stderrFailed := rfl }) fun T₂ _ _ => ?_
        refine paired_bind_same (writeTo_paired .err _) fun T₃ _ _ => ?_
        exact paired_pure fun _ _ => .none
      | ok hh =>
        refine paired_bind_same (paired_modify fun T' hle σ τ hσ => { hσ with stderr := .some (hle.file hh) })
          fun T₂ hle₂ _ => ?_
        exact paired_pure fun _ hle => .some (hle.file (hle₂.file hh))

theorem write_paired (data : Bytes) : Paired F Identical T (write data) (write data) := by
  refine paired_bind stdoutHandle_paired fun T₁ _ output output' houtput => ?_
  cases houtput with
  | some hh => exact writeTo_paired (.file hh) data
  | none =>
    -- No stage comes after either of the two, so that both write to the console.
    refine paired_get_bind fun T₂ _ σ τ hσ => ?_
    rw [hσ.toPipe, hσ.toPipe']
    exact writeTo_paired .out data

theorem error_paired (text : String) : Paired F Identical T (error text) (error text) := by
  refine paired_bind stderrHandle_paired fun T₁ _ errors errors' herrors => ?_
  cases herrors with
  | some hh => exact writeTo_paired (.file hh) _
  | none => exact writeTo_paired .err _

end Streams

/-! ## Built-in commands -/

namespace Builtin

open StageM Streams

theorem errorThen_paired (text : String) (a : α) :
    Paired F Identical T (do Streams.error text; return a) (do Streams.error text; return a) :=
  paired_bind_same (error_paired text) fun _ _ _ => paired_same a

theorem kindOf?_paired (path : Path) : Paired F Identical T (kindOf? path) (kindOf? path) := by
  unfold kindOf?
  split
  · exact paired_same _
  refine paired_bind_same (paired_call (stat_tied T.root _ _) id) fun T₁ _ reply => ?_
  cases reply with
  | ok kind => exact paired_same _
  | error cause =>
    dsimp only
    split
    · exact paired_same _
    · exact paired_throw _

theorem runExit_paired (args : List String) : Paired F Identical T (runExit args) (runExit args) := by
  unfold runExit
  split
  · exact paired_same _
  · split
    · exact paired_same _
    · exact errorThen_paired _ _
  · exact errorThen_paired _ _

theorem runEcho_paired (args : List String) : Paired F Identical T (runEcho args) (runEcho args) :=
  paired_bind_same (write_paired _) fun _ _ _ => paired_same _

theorem typeOne_paired (ctx : Context) (name : String) :
    Paired F Identical T (typeOne ctx name) (typeOne ctx name) := by
  refine paired_bind_same (kindOf?_paired _) fun T₁ _ kind => ?_
  split
  · exact errorThen_paired _ _
  · exact errorThen_paired _ _
  · refine paired_bind_same (paired_call (fetch_tied T₁.root _) id) fun T₂ _ reply => ?_
    cases reply with
    | error cause => exact errorThen_paired _ _
    | ok data => exact paired_bind_same (write_paired data) fun _ _ _ => paired_same _

theorem typeAll_paired (ctx : Context) (names : List String) :
    Paired F Identical T (typeAll ctx names) (typeAll ctx names) := by
  induction names generalizing T with
  | nil => exact paired_same _
  | cons name rest ih =>
    exact paired_bind_same (typeOne_paired ctx name) fun _ _ _ =>
      paired_bind_same ih fun _ _ _ => paired_same _

theorem runType_paired (ctx : Context) (args : List String) :
    Paired F Identical T (runType ctx args) (runType ctx args) := by
  unfold runType
  split
  · exact errorThen_paired _ _
  · exact paired_bind_same (typeAll_paired ctx args) fun _ _ _ => paired_same _

theorem moveTo_paired (ctx : Context) (target : String) :
    Paired F Identical T (moveTo ctx target) (moveTo ctx target) := by
  refine paired_bind_same (kindOf?_paired _) fun T₁ _ kind => ?_
  split
  · exact errorThen_paired _ _
  · exact paired_same _
  · exact errorThen_paired _ _

theorem runCd_paired (ctx : Context) (args : List String) :
    Paired F Identical T (runCd ctx args) (runCd ctx args) := by
  unfold runCd
  split
  · exact moveTo_paired ctx _
  · exact moveTo_paired ctx _
  · exact errorThen_paired _ _

theorem body_paired (b : Builtin) (args : List String) (ctx : Context) :
    Paired F Identical T (body b args ctx) (body b args ctx) := by
  cases b with
  | exit => exact paired_bind_same (runExit_paired args) fun _ _ _ => paired_same _
  | echo => exact paired_bind_same (runEcho_paired args) fun _ _ _ => paired_same _
  | type => exact paired_bind_same (runType_paired ctx args) fun _ _ _ => paired_same _
  | cd => exact runCd_paired ctx args

/-- A built-in command does the same in worlds alike. -/
theorem run_paired (b : Builtin) (args : List String) (ctx : Context) :
    Paired F Identical T (run b args ctx) (run b args ctx) := by
  refine paired_bind (paired_attempt stdinHandle_paired) fun T₁ _ input input' hinput => ?_
  cases hinput with
  | error fault =>
    refine paired_get_bind fun T₂ _ σ τ hσ => ?_
    rw [hσ.redirects]
    exact errorThen_paired _ _
  | ok hh =>
    refine paired_bind (paired_attempt (body_paired b args ctx)) fun T₂ _ result result' hresult => ?_
    cases hresult with
    | ok hsame =>
      cases hsame
      exact paired_same _
    | error fault =>
      split
      · rename_i hok
        cases hok
      · exact paired_same _
      · exact errorThen_paired _ _

end Builtin

/-! ## Lookup and launch -/

namespace Lookup

open Job

theorem isExecutable_paired (path : Path) : Paired F Identical T (isExecutable path) (isExecutable path) := by
  unfold isExecutable
  split
  · exact paired_pure rfl
  refine paired_bind (paired_call (stat_tied T.root _ _) id) fun T₁ _ reply reply' hreply => ?_
  cases hreply
  cases reply with
  | ok kind => exact paired_pure rfl
  | error cause => exact paired_pure rfl

theorem firstExecutable_paired (paths : List Path) :
    Paired F Identical T (firstExecutable paths) (firstExecutable paths) := by
  induction paths generalizing T with
  | nil => exact paired_pure rfl
  | cons path rest ih =>
    refine paired_bind (isExecutable_paired path) fun T₁ _ found found' hfound => ?_
    cases hfound
    cases found with
    | true => exact paired_pure rfl
    | false => exact ih

theorem find_paired (ctx : Context) (name : String) : Paired F Identical T (find ctx name) (find ctx name) := by
  unfold find
  split
  · exact paired_pure rfl
  · refine paired_bind (firstExecutable_paired _) fun T₁ _ found found' hfound => ?_
    cases hfound
    cases found with
    | none => exact paired_pure rfl
    | some path => exact paired_pure rfl

end Lookup

section Files

open Job

theorem loadImage_paired {base base' : Ino} (hbase : T.node base base') (depth : Nat) (path : Raw) :
    Paired F Identical T (loadImage base depth path) (loadImage base' depth path) := by
  induction depth using Nat.strongRecOn generalizing T path with
  | ind depth ih =>
    rw [loadImage.eq_def, loadImage.eq_def base']
    refine paired_bind (paired_call (stat_tied hbase _ _) id) fun T₁ hle₁ reply reply' hreply => ?_
    cases hreply
    split
    · exact paired_pure rfl
    · exact paired_pure rfl
    · refine paired_bind (paired_call (fetch_tied (hle₁.node hbase) _) id) fun T₂ hle₂ content content' hcontent => ?_
      cases hcontent
      have hbase := hle₂.node (hle₁.node hbase)
      split
      · exact paired_pure rfl
      split
      · exact paired_pure rfl
      · -- What the first line of a script names has to be there, and may be a script itself.
        cases depth with
        | zero =>
          refine paired_bind (paired_call (stat_tied hbase _ _) id) fun T₃ _ kind kind' hkind => ?_
          cases hkind
          split
          · exact paired_pure rfl
          · exact paired_pure rfl
        | succ depth =>
          refine paired_bind (ih depth (Nat.lt_succ_self depth) hbase _) fun T₃ _ image image' himage => ?_
          cases himage
          split
          · exact paired_pure rfl
          · exact paired_pure rfl
    · exact paired_pure rfl

/-- Whether a process starts: both do, or neither for the same cause. -/
def Launched {ε : Type} (_ : Ties) (r r' : Except ε (Job Ending)) : Prop :=
  ExceptTied (fun _ _ => True) r r'

theorem startFile_paired (programs : Programs) (path : Raw) {call call' : Invocation} (hargs : call.args = call'.args)
    (hdirectory : T.node call.directory call'.directory) :
    Paired F Launched T (startFile programs path call) (startFile programs path call') := by
  unfold startFile
  rw [hargs]
  split
  · exact paired_pure (.error _)
  refine paired_bind (loadImage_paired hdirectory _ _) fun T₁ _ image image' himage => ?_
  cases himage
  split
  · exact paired_pure (.error _)
  split
  · exact paired_pure (.error _)
  · exact paired_pure (.ok trivial)

theorem Launch.child_paired (programs : Programs) (ctx : Context) (s : Stage) (path : Path) (stdin stdin' : Source)
    (stdout stdout' stderr stderr' : Sink) :
    Paired F Launched T (Launch.child programs ctx s path stdin stdout stderr)
      (Launch.child programs ctx s path stdin' stdout' stderr') := by
  unfold Launch.child
  split
  · exact paired_pure (.error _)
  refine paired_bind (paired_call (enter_tied T.root _) id) fun T₁ _ directory directory' hdirectory => ?_
  cases hdirectory with
  | error e => exact paired_pure (.error _)
  | ok hdirectory =>
    refine paired_bind (paired_call environment_tied id) fun T₂ hle₂ environment environment' henvironment => ?_
    cases henvironment
    refine paired_bind (startFile_paired programs _ ?_ ?_) fun T₃ _ job job' hjob => ?_
    · rfl
    · exact hle₂.node hdirectory
    cases hjob with
    | error e => exact paired_pure (.error _)
    | ok h => exact paired_pure (.ok trivial)

end Files

namespace Launch

open StageM Streams

/-- A launch fails alike in worlds alike, wherever the process would read and write. -/
theorem launch_paired (programs : Programs) (ctx : Context) (s : Stage) (path : Path) (stdin stdin' : Source)
    (stdout stdout' : Sink) :
    Paired F Launched T (launch programs ctx s path stdin stdout)
      (launch programs ctx s path stdin' stdout') := by
  unfold launch
  refine paired_bind stderrHandle_paired fun T₁ _ errors errors' herrors => ?_
  refine paired_bind (paired_attempt stdinHandle_paired) fun T₂ _ input input' hinput => ?_
  cases hinput with
  | error fault => exact paired_pure fun _ _ => .error _
  | ok hinput =>
    refine paired_bind (paired_attempt stdoutHandle_paired) fun T₃ _ output output' houtput => ?_
    cases houtput with
    | error fault => exact paired_pure fun _ _ => .error _
    | ok houtput =>
      refine paired_bind (paired_liftM fun _ _ => child_paired programs ctx s path _ _ _ _ _ _)
        fun T₄ _ job job' hjob => ?_
      cases hjob with
      | error fault => exact paired_pure fun _ _ => .error _
      | ok h => exact paired_pure fun _ _ => .ok trivial

end Launch

end Conch
