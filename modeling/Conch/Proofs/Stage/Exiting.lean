-- SUMMARY: The command `exit` asks for the end with one byte, whatever its operand: what a numeral writes modulo 256, and else 2.
import Conch.Proofs.Stage.Moving
import Conch.Proofs.Text.Numerals

/-!
# Asking for the end

With one operand `exit` always asks for the end of the session. A numeral asks for the
remainder of its number modulo 256, and then nothing is written. Any other operand is told
in one line and asks for 2.
-/

namespace Conch

open StageM FileSystem World

namespace Builtin

open Streams

variable {base σ : Streams} {w w₁ : World} {o : Outlet} {notice : Bytes} {text : String}

/-! ## The code of a number -/

theorem exitCode_le (n : Int) : exitCode n ≤ 255 := by
  have hpos : 0 ≤ n % 256 := Int.emod_nonneg n (by decide)
  have hlt : n % 256 < 256 := Int.emod_lt_of_pos n (by decide)
  unfold exitCode
  omega

/-- What `exit` with an operand asks for, and what it has written by then. -/
inductive Requests (base : Streams) (o : Outlet) (notice : Bytes) (text : String) (w : World) : Nat → World → Prop
  | number {m : Numeral} {w' : World} (htext : m.text = text) (hfiles : w'.files = w.files)
      (hgot : ∀ c, w'.got c = w.got c) : Requests base o notice text w (m.value % 256).toNat w'
  | other {w' : World} (hnone : ∀ m : Numeral, m.text ≠ text)
      (hheard : Heard base o notice (utf8Line s!"exit: {text}: numeric argument required") w w') :
    Requests base o notice text w 2 w'

namespace Requests

variable {code : Nat} {w' : World}

theorem le (h : Requests base o notice text w code w') : code ≤ 255 := by
  cases h with
  | number => exact exitCode_le _
  | other => decide

/-- A numeral asks for the code of its number, however it is written, and nothing is said of it. -/
theorem of_numeral (h : Requests base o notice text w code w') {m : Numeral} (htext : m.text = text) :
    code = (m.value % 256).toNat ∧ w'.files = w.files ∧ ∀ c, w'.got c = w.got c := by
  cases h with
  | @number m' _ htext' hfiles hgot =>
    have hvalue : some m'.value = some m.value := by
      rw [← m'.integer?_text, ← m.integer?_text, htext, htext']
    rw [Option.some.inj hvalue]
    exact ⟨rfl, hfiles, hgot⟩
  | other hnone => exact absurd htext (hnone m)

/-- What is no numeral is told. -/
theorem of_unreadable (h : Requests base o notice text w code w') (hnone : integer? text = none) :
    code = 2 ∧ Heard base o notice (utf8Line s!"exit: {text}: numeric argument required") w w' := by
  cases h with
  | number htext => exact absurd htext (integer?_eq_none_iff.1 hnone _)
  | other _ hheard => exact ⟨rfl, hheard⟩

/-- Closing files is no matter of what was asked for. -/
theorem closing (h : Requests base o notice text w code w') (handles : List Handle) :
    Requests base o notice text w code (handles.foldl World.close w') := by
  cases h with
  | number htext hfiles hgot =>
    exact .number htext ((closeAll_view handles w').files.trans hfiles) fun c =>
      (got_closeAll handles w' c).trans (hgot c)
  | other hnone hheard => exact .other hnone (hheard.closing handles)

end Requests

/-! ## The command -/

/-- The body of `exit` looks at its operand only, whatever became of the input before. -/
theorem runExit_runs (hhears : base.Hears w o notice) (hunused : base.Unused) (hlinked : w.files.Linked)
    (honly : OnlyAt .stdin base σ) (hbeside : Beside (fun _ => False) w w₁) (hfiles : w₁.files = w.files)
    (hgot : ∀ c, w₁.got c = w.got c) (text : String) :
    runs (runExit [text]) (fun result _ w' => ∃ code, result = .ok (.exitRequest code) ∧
      Requests base o notice text w code w') σ w₁ := by
  cases hread : integer? text with
  | some n =>
    simp only [runExit, hread]
    obtain ⟨m, htext, rfl⟩ := integer?_eq_some_iff.1 hread
    exact (runs_pure _).2 ⟨_, rfl, .number htext hfiles hgot⟩
  | none =>
    simp only [runExit, hread]
    have htell := hhears.error hunused hlinked honly hbeside hfiles hgot s!"exit: {text}: numeric argument required"
    refine runs_bind htell ?_ (by rintro fault after w' ⟨⟨⟩, -⟩)
    rintro - after w' ⟨-, hheard⟩
    exact (runs_pure _).2 ⟨_, rfl, .other (integer?_eq_none_iff.1 hread) hheard⟩

theorem run_exit_runs (hhears : base.Hears w o notice) (hunused : base.Unused) (hlinked : w.files.Linked)
    (hinput : base.InputOpens w.files) (ctx : Context) (text : String) :
    runs (run .exit [text] ctx) (fun result _ w' => ∃ code, result = .ok (.exitRequest code, ctx) ∧
      Requests base o notice text w code w') base w := by
  unfold run
  refine runs_attempt_bind (runs_and (stdinHandle_decides hunused) (stdinHandle_runs hlinked)) ?_
  rintro result σ w₁ ⟨⟨name, fault, rfl, hname, hfault, -⟩ | ⟨⟨handle, rfl⟩, -, hfiles⟩, hσ, hbeside, hgot⟩
  · exact absurd hfault (hinput name fault hname)
  · have honly : OnlyAt .stdin base σ := by
      rcases hσ with rfl | ⟨h, rfl⟩
      · exact .refl .stdin _
      · exact onlyAt_owning h
    have hbody := runExit_runs hhears hunused hlinked honly hbeside hfiles hgot text
    refine runs_attempt_bind (runs_bind hbody ?_ ?_) ?_ (R := fun result _ w' => ∃ code,
      result = .ok (.exitRequest code, ctx) ∧ Requests base o notice text w code w')
    · rintro _ after w' ⟨code, ⟨⟩, hrequests⟩
      exact (runs_pure _).2 ⟨code, rfl, hrequests⟩
    · rintro fault after w' ⟨code, ⟨⟩, -⟩
    · rintro _ after w' ⟨code, rfl, hrequests⟩
      exact (runs_pure _).2 ⟨code, rfl, hrequests⟩

/-- With one operand `exit` asks for the end with a byte. If the operand is a numeral, this is the remainder of its
    number modulo 256 and nothing is written. If not, one message is heard and it is 2. A number may be written with
    more zeros, with signs, underscores and padding. -/
theorem exit_requests_byte (base : Streams) (ctx : Context) (text : String) (w : World) (hunused : base.Unused)
    (hlinked : w.files.Linked) (hhears : base.Hears w o notice) :
    (∃ code w', Job.run ((runExit [text]).closing base) w = (.ok (.exitRequest code), w') ∧ code ≤ 255 ∧
      Requests base o notice text w code w') ∧
    (base.InputOpens w.files → ∃ code w', Job.run ((run .exit [text] ctx).closing base) w =
      (.ok (.exitRequest code, ctx), w') ∧ code ≤ 255 ∧ Requests base o notice text w code w') ∧
    ∀ n : Int, (text = toString n ∧ (Nat.toDigits 10 n.natAbs).length ≤ 4300 ∨
        ∃ m : Numeral, m.Renders n ∧ m.text = text) →
      ∃ w', Job.run ((runExit [text]).closing base) w = (.ok (.exitRequest (n % 256).toNat), w') ∧
        w'.files = w.files ∧ ∀ c, w'.got c = w.got c := by
  obtain ⟨_, after, w₁, hrun, code, rfl, hrequests⟩ :=
    exists_run (runExit_runs hhears hunused hlinked (.refl .stdin base) .refl rfl (fun _ => rfl) text)
  have hclosed := hrequests.closing after.owned
  refine ⟨⟨code, _, run_closing hrun, hclosed.le, hclosed⟩, ?_, ?_⟩
  · intro hinput
    obtain ⟨_, after, w₁, hrun, code, rfl, hrequests⟩ :=
      exists_run (run_exit_runs hhears hunused hlinked hinput ctx text)
    exact ⟨code, _, run_closing hrun, hrequests.le, hrequests.closing after.owned⟩
  · intro n hn
    obtain ⟨m, hrenders, htext⟩ : ∃ m : Numeral, m.Renders n ∧ m.text = text := by
      rcases hn with ⟨rfl, hshort⟩ | hn
      · exact ⟨.ofInt n hshort, Numeral.ofInt_renders hshort, Numeral.ofInt_text hshort⟩
      · exact hn
    obtain ⟨hcode, hfiles, hgot⟩ := hclosed.of_numeral htext
    rw [hrenders.value_eq] at hcode
    exact ⟨_, hcode ▸ run_closing hrun, hfiles, hgot⟩

/-- The number -257, with digits of two scripts. -/
def mixedNumeral : Numeral where
  lead := [' ']
  sign := .minus
  groups := [['2'], ['5', '٧']]
  trail := ['\t']
  lead_padding := List.forall_mem_singleton.2 (by decide)
  groups_ne_nil := by decide
  grouped := by
    refine List.forall_mem_cons.2 ⟨?first, List.forall_mem_singleton.2 ?second⟩
    case first => exact ⟨by decide, List.forall_mem_singleton.2 (by decide)⟩
    case second => exact ⟨by decide, List.forall_mem_cons.2 ⟨by decide, List.forall_mem_singleton.2 (by decide)⟩⟩
  trail_padding := List.forall_mem_singleton.2 (by decide)
  length_le := by decide

/-- A number in digits of two scripts, one in its usual form, and a text with one underscore too many. -/
theorem exit_requests_byte_of_numerals_and_of_none :
    (∃ w', Job.run ((runExit [" -2_5٧\t"]).closing (.ofStage linkStage .rootPath false)) linkedWorld =
      (.ok (.exitRequest 255), w') ∧ w'.err = []) ∧
    (∃ w', Job.run ((runExit ["-300"]).closing (.ofStage linkStage .rootPath false)) linkedWorld =
      (.ok (.exitRequest 212), w') ∧ w'.err = []) ∧
    ∃ w', Job.run ((run .exit ["1__2"] copyContext).closing (.ofStage linkStage .rootPath false)) linkedWorld =
      (.ok (.exitRequest 2, copyContext), w') ∧ w'.err = utf8Line "exit: 1__2: numeric argument required" := by
  have hunused := unused_ofStage linkStage .rootPath false
  have hsound : linkedWorld.files.Sound := by decide
  have htakes : (Streams.ofStage linkStage .rootPath false).Takes linkedWorld .stderr (.console .err) [] :=
    .inherited rfl
  have hhears : (Streams.ofStage linkStage .rootPath false).Hears linkedWorld (.console .err) [] := .takes htakes
  refine ⟨?_, ?_, ?_⟩
  · obtain ⟨code, w', hrun, -, hrequests⟩ :=
      (exit_requests_byte _ copyContext " -2_5٧\t" linkedWorld hunused hsound.linked hhears).1
    have htext : mixedNumeral.text = " -2_5٧\t" := by decide +kernel
    obtain ⟨hcode, -, hgot⟩ := hrequests.of_numeral htext
    have hvalue : mixedNumeral.value = -257 := by decide +kernel
    rw [hvalue] at hcode
    obtain rfl : code = 255 := hcode.trans (by decide)
    exact ⟨w', hrun, hgot .err⟩
  · obtain ⟨w', hrun, -, hgot⟩ :=
      (exit_requests_byte _ copyContext "-300" linkedWorld hunused hsound.linked hhears).2.2 (-300)
        (.inl ⟨by decide +kernel, by decide +kernel⟩)
    exact ⟨w', hrun, hgot .err⟩
  · obtain ⟨code, w', hrun, -, hrequests⟩ :=
      (exit_requests_byte _ copyContext "1__2" linkedWorld hunused hsound.linked hhears).2.1 linkStage_inputOpens
    obtain ⟨rfl, hheard⟩ := hrequests.of_unreadable (by decide +kernel)
    exact ⟨w', hrun, hheard.console .err⟩

end Builtin

end Conch
