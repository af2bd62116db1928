-- SUMMARY: Reports to the output and the diagnostics of a stage, which take everything: what each has come to.
import Conch.Proofs.Stage.Output

/-!
# Reports

A command reports to its output and to its diagnostics, in some order. Where both take
everything, `Streams.Outputs` tells what they have taken so far, and each report keeps it.
What is said of one of them does not depend on what the other one got, because their files
are different ones.
-/

namespace Conch

open StageM FileSystem World

/-! ## Two outputs -/

/-- Some data, and the stream that they are written to. -/
structure Report where
  stream : Stream
  data : Bytes
  deriving DecidableEq, Repr

/-- The data of the reports to one stream, in order. -/
def piecesFor (st : Stream) (log : List Report) : List Bytes :=
  (log.filter (·.stream = st)).map (·.data)

/-- One thing for the output and another one for the diagnostics. -/
def forBoth {α : Type} (output diagnostics : α) : Stream → α
  | .stderr => diagnostics
  | _ => output

/-- A stream takes everything that is written to it, and its file holds something before. -/
inductive Streams.Takes (base : Streams) (w : World) (st : Stream) : Outlet → Bytes → Prop
  | inherited {old : Bytes} (hfile : base.file? st = none) : Takes base w st (base.inherited st) old
  | file {name : String} {o : Outlet} {old : Bytes} (hfile : base.file? st = some name)
      (hlands : w.files.Lands (base.pathOf name) o old) : Takes base w st o old

/-- The files of different streams are different files. -/
def Streams.Distinct (base : Streams) (fs : FileSystem) : Prop :=
  ∀ st st' p p', st ≠ st' → base.FileAt st p → base.FileAt st' p' → st ≠ .stdin → st' ≠ .stdin → fs.Apart p p' writing

/-- What has come of a stream that some data were written to, one after the other. -/
def Streams.Received (base : Streams) (st : Stream) (o : Outlet) (old : Bytes) (pieces : List Bytes) (w w' : World) :
    Prop :=
  match o with
  | .console c => w'.got c = w.got c ++ pieces.flatten
  | .void => True
  | .stored path =>
    -- A file that nothing was written to is neither made nor emptied.
    if pieces = [] then w'.files.look path = w.files.look path
    else w'.files.fetch root path = .ok ((if base.appends st then old else []) ++ pieces.flatten)

section Pieces

variable {st : Stream} {log : List Report} {r : Report} {data old : Bytes} {pieces : List Bytes} {base : Streams}

theorem piecesFor_snoc_self : piecesFor st (log ++ [⟨st, data⟩]) = piecesFor st log ++ [data] := by
  simp [piecesFor]

theorem piecesFor_snoc_of_ne (hne : st ≠ r.stream) : piecesFor st (log ++ [r]) = piecesFor st log := by
  simp [piecesFor, Ne.symm hne]

theorem piecesFor_snoc_ne_nil (h : piecesFor st log ≠ []) : piecesFor st (log ++ [r]) ≠ [] := by
  simp only [piecesFor, List.filter_append, List.map_append]
  exact List.append_ne_nil_of_left_ne_nil h _

/-- What is in the file of a stream, if it was opened. -/
def Streams.contentOf (base : Streams) (st : Stream) (old : Bytes) (pieces : List Bytes) : Option Bytes :=
  if pieces = [] then none else some (base.begun st old none ++ pieces.flatten)

theorem Streams.contentOf_snoc :
    base.contentOf st old (pieces ++ [data]) = some (base.begun st old (base.contentOf st old pieces) ++ data) := by
  unfold contentOf
  by_cases h : pieces = []
  · simp [h]
  · simp [h, begun]

end Pieces

namespace Streams

variable {base σ after : Streams} {outlet : Stream → Outlet} {old : Stream → Bytes} {log : List Report}
  {w₀ w w' : World} {st : Stream}

theorem Takes.stands {o : Outlet} {old : Bytes} (h : base.Takes w st o old) (hunused : base.Unused) :
    Stands base base w st o old none := by
  cases h with
  | inherited hfile => exact .inherited hfile rfl
  | file hfile hlands => exact .waiting ⟨hfile, hunused.handles st, fun _ => hunused.sound⟩ hfile hlands

/-- The outputs after some reports. -/
structure Outputs (base : Streams) (outlet : Stream → Outlet) (old : Stream → Bytes) (log : List Report) (w₀ : World)
    (σ : Streams) (w : World) : Prop where
  setup : base.SameSetup σ
  linked : w.files.Linked
  stands : ∀ st, st ≠ .stdin → Stands base σ w st (outlet st) (old st) (base.contentOf st (old st) (piecesFor st log))
  settled : ∀ h, σ.SettledAt h
  distinct : base.Distinct w.files
  named : ∀ r ∈ log, r.stream ≠ .stdin
  /-- Only files of streams that were written to were touched. -/
  beside : Beside (fun p => ∃ st, st ≠ .stdin ∧ piecesFor st log ≠ [] ∧ base.FileAt st p) w₀ w
  console : ∀ c, w.got c = w₀.got c ++ (log.filter (outlet ·.stream = .console c)).flatMap (·.data)

theorem Outputs.start (hunused : base.Unused) (hlinked : w.files.Linked) (hdistinct : base.Distinct w.files)
    (htakes : ∀ st, st ≠ .stdin → base.Takes w st (outlet st) (old st)) : Outputs base outlet old [] w base w where
  setup := .rfl
  linked := hlinked
  stands st hst := (htakes st hst).stands hunused
  settled := hunused.settledAt
  distinct := hdistinct
  named := List.forall_mem_nil _
  beside := .refl
  console _ := (List.append_nil _).symm

/-- What is done at the files of one stream does not matter to the files of another one. -/
theorem Outputs.clear (h : Outputs base outlet old log w₀ σ w) {st' : Stream} (hne : st ≠ st') (hst : st ≠ .stdin)
    (hst' : st' ≠ .stdin) {p : String} (hp : base.FileAt st' p) : Clear (base.FileAt st) p writing w :=
  ⟨h.linked, fun q hq => h.distinct st st' q p hne hq hp hst hst'⟩

theorem Outputs.keeps_distinct (h : Outputs base outlet old log w₀ σ w) {P : String → Prop} (hbeside : Beside P w w') :
    base.Distinct w'.files :=
  fun st st' p p' hne hp hp' hst hst' => hbeside.apart h.linked (h.distinct st st' p p' hne hp hp' hst hst')

/-- Each report is taken as a whole. -/
theorem Outputs.put (h : Outputs base outlet old log w₀ σ w) (hst : st ≠ .stdin) (data : Bytes) :
    runs (st.put data) (fun result after w' => result = .ok () ∧
      Outputs base outlet old (log ++ [⟨st, data⟩]) w₀ after w') σ w := by
  refine runs_mono ?_ (put_runs hst h.setup h.linked (h.stands st hst) (fun g _ => h.settled g) data)
  rintro result after w' ⟨hresult, hstands, honly, hfed⟩
  have hbeside : Beside (base.FileAt st) w w' := hfed.beside.mono fun p hp => (h.stands st hst).fileAt hp
  refine ⟨hresult, ?_⟩
  exact {
    setup := h.setup.trans honly.setup
    linked := hbeside.linked h.linked
    stands := by
      intro st' hst'
      by_cases hsame : st' = st
      · subst hsame
        rw [piecesFor_snoc_self, contentOf_snoc]
        exact hstands
      · rw [piecesFor_snoc_of_ne hsame]
        refine (h.stands st' hst').beside (h.setup.trans honly.setup) (honly.others st' hsame) ?_ hbeside ?_
        · exact fun _ => honly.sound
        · exact fun p hp => h.clear (Ne.symm hsame) hst hst' hp
    settled := fun g => (h.settled g).of_noneLeft honly.left
    distinct := h.keeps_distinct hbeside
    named := List.forall_mem_append.2 ⟨h.named, List.forall_mem_singleton.2 hst⟩
    beside := by
      refine (h.beside.mono ?_).trans (hbeside.mono ?_)
      · rintro p ⟨st', hst', hpieces, hp⟩
        exact ⟨st', hst', piecesFor_snoc_ne_nil hpieces, hp⟩
      · intro p hp
        refine ⟨st, hst, ?_, hp⟩
        rw [piecesFor_snoc_self]
        exact List.append_ne_nil_of_right_ne_nil _ (List.cons_ne_nil _ _)
    console := by
      intro c
      rw [hfed.poured c, h.console c, List.filter_append, List.flatMap_append, List.append_assoc]
      by_cases hc : outlet st = .console c <;> simp [Outlet.share, hc] }

/-- Asking for the input is no matter of the outputs. -/
theorem Outputs.input (h : Outputs base outlet old log w₀ σ w) :
    runs stdinHandle (fun _ after w' => Outputs base outlet old log w₀ after w') σ w := by
  refine runs_mono ?_ (stdinHandle_runs h.linked)
  rintro result after w' ⟨hafter, hbeside, hgot⟩
  have honly : OnlyAt .stdin σ after := by
    rcases hafter with rfl | ⟨g, rfl⟩
    · exact .refl .stdin _
    · exact onlyAt_owning g
  exact {
    setup := h.setup.trans honly.setup
    linked := hbeside.linked h.linked
    stands := by
      intro st hst
      refine (h.stands st hst).beside (h.setup.trans honly.setup) (honly.others st hst) ?_ hbeside ?_
      · exact fun _ => honly.sound
      · exact fun p hp => ⟨h.linked, nofun⟩
    settled := fun g => (h.settled g).of_noneLeft honly.left
    distinct := h.keeps_distinct hbeside
    named := h.named
    beside := h.beside.trans (hbeside.mono nofun)
    console := fun c => (hgot c).trans (h.console c) }

/-- Before anything is reported, a stored file is as it was found. -/
theorem Outputs.target (h : Outputs base outlet old [] w₀ σ w) (hst : st ≠ .stdin) {path : String}
    (ho : outlet st = .stored path) : base.FileAt st path ∧ ∃ spot, w.files.Target path spot (old st) := by
  have hstands := h.stands st hst
  refine ⟨hstands.fileAt ho, ?_⟩
  rw [show base.contentOf st (old st) (piecesFor st []) = none from rfl, ho] at hstands
  have hnot : Outlet.stored path ≠ base.inherited st := by
    cases st <;> exact nofun
  generalize houtlet : Outlet.stored path = o at hstands hnot
  cases hstands with
  | inherited hfile ho => exact absurd ho hnot
  | waiting hwaits hfile hlands =>
    cases hlands with
    | stored htarget =>
      cases houtlet
      exact ⟨_, htarget⟩
    | device _ _ _ hd => exact absurd (houtlet ▸ hd) Device.outlet?_ne_stored

/-- What has been reported to a stream has come to its outlet. -/
theorem Outputs.received (h₀ : Outputs base outlet old [] w₀ base w₀) (h : Outputs base outlet old log w₀ σ w)
    (hconsoles : ∀ st' c, st' ≠ .stdin → outlet st = .console c → outlet st' = .console c → st' = st)
    (hst : st ≠ .stdin) : base.Received st (outlet st) (old st) (piecesFor st log) w₀ w := by
  cases ho : outlet st with
  | void => trivial
  | console c =>
    have honly : log.filter (outlet ·.stream = .console c) = log.filter (·.stream = st) := by
      refine List.filter_congr fun r hr => decide_eq_decide.2 ⟨hconsoles r.stream c (h.named r hr) ho, ?_⟩
      rintro rfl
      exact ho
    show w.got c = w₀.got c ++ (piecesFor st log).flatten
    rw [h.console c, honly]
    rfl
  | stored path =>
    obtain ⟨hpath, spot, htarget⟩ := h₀.target hst ho
    unfold Received
    dsimp only
    split
    · rename_i hnone
      refine h.beside.look ⟨h₀.linked, ?_⟩
      -- What was written to leads elsewhere, also when the path is only looked at.
      rintro p ⟨st', hst', hpieces, hp⟩ s hs hread
      have hne : st' ≠ st := by
        rintro rfl
        exact hpieces hnone
      cases htarget.locate.symm.trans hread
      exact h₀.distinct st' st p path hne hp hpath hst' hst _ hs htarget.leads
    · rename_i hsome
      have hstands := h.stands st hst
      rw [contentOf, if_neg hsome, ho] at hstands
      exact hstands.fetch

/-- A console that no output goes to gets nothing. -/
theorem Outputs.silent (h : Outputs base outlet old log w₀ σ w) {c : Console}
    (hc : ∀ st, st ≠ .stdin → outlet st ≠ .console c) : w.got c = w₀.got c := by
  have hnone : log.filter (outlet ·.stream = .console c) = [] := by
    refine List.filter_eq_nil_iff.2 fun r hr => ?_
    rw [decide_eq_true_eq]
    exact hc r.stream (h.named r hr)
  rw [h.console c, hnone]
  exact List.append_nil _

/-- Only what is stored and what the console got counts. -/
theorem Received.of_same {o : Outlet} {old : Bytes} {pieces : List Bytes} (h : base.Received st o old pieces w₀ w)
    (hfiles : w'.files = w.files) (hgot : ∀ c, w'.got c = w.got c) : base.Received st o old pieces w₀ w' := by
  cases o with
  | void => trivial
  | console c => exact (hgot c).trans h
  | stored path =>
    unfold Received at h ⊢
    dsimp only at h ⊢
    rwa [hfiles]

end Streams

namespace StageM

/-- At the end all that was opened is closed. -/
theorem run_closing {α : Type} {x : StageM α} {σ : Streams} {result : Except Fault α} {after : Streams}
    {w w' : World}
    (h : Job.run (x σ) w = ((result, after), w')) :
    Job.run (x.closing σ) w = (result, after.owned.foldl World.close w') := by
  unfold StageM.closing
  rw [Job.run_bind, h]
  show Job.run (Streams.close after >>= fun _ => return result) w' = _
  rw [Job.run_bind, Streams.close_run]
  rfl

end StageM

end Conch
