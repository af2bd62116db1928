-- SUMMARY: Many uses of the streams of a stage: each file is opened at most once, and what is open is what is owned.
import Conch.Proofs.Stage.Output

/-!
# Owning what is open

The streams of a stage are used in any order, each use may come to a fault, and they can
be used after they were closed. Whatever the world replies, a stream that was opened is
not opened again, and what is open is what is owned. That the file for diagnostics cannot
be opened is found out once, and from then on the console takes its place.
-/

namespace Conch

open StageM FileSystem

/-! ## Many uses -/

/-- A use of the streams of a stage, with its exchanges and what it has come to. -/
structure Used where
  use : Use
  trace : List Exchange
  result : Except Fault Unit

/-- Streams after some uses, whatever the world has replied. -/
inductive Uses (base : Streams) : List Used → Streams → Prop
  | start : Uses base [] base
  | next {steps : List Used} {σ after : Streams} {step : Used} (hbefore : Uses base steps σ)
      (hstep : makes step.use.act σ step.trace step.result after) : Uses base (steps ++ [step]) after

/-- All exchanges of some uses, in order. -/
def exchanges (steps : List Used) : List Exchange :=
  steps.flatMap (·.trace)

/-- A use has asked for a stream. -/
def Used.AsksFor (st : Stream) (step : Used) : Prop :=
  step.use.stream? = some st

instance (st : Stream) (step : Used) : Decidable (step.AsksFor st) :=
  inferInstanceAs (Decidable (_ = _))

/-- The files that were opened in the uses of one stream. -/
def openedFor (st : Stream) (steps : List Used) : List Opening :=
  (steps.filter (·.AsksFor st)).flatMap fun step => opened step.trace

/-- The diagnostic lines that some uses are to give, in order. -/
def linesOf (steps : List Used) : List Bytes :=
  steps.flatMap (·.use.lines)

section Snoc

variable {steps : List Used} {step : Used} {st : Stream}

theorem exchanges_snoc : exchanges (steps ++ [step]) = exchanges steps ++ step.trace := by
  simp [exchanges]

theorem linesOf_snoc : linesOf (steps ++ [step]) = linesOf steps ++ step.use.lines := by
  simp [linesOf]

theorem openedFor_snoc :
    openedFor st (steps ++ [step]) = openedFor st steps ++ if step.AsksFor st then opened step.trace else [] := by
  by_cases h : step.AsksFor st <;> simp [openedFor, h]

end Snoc

variable {base σ : Streams} {steps : List Used}

/-! ## Files are opened once -/

/-- What has been opened for each stream, and what has been tried. -/
structure Accounted (base : Streams) (steps : List Used) (σ : Streams) : Prop where
  setup : base.SameSetup σ
  /-- A stream that has a file was opened once, and one that has none was not. -/
  opened : ∀ st, (σ.handle? st = none ∧ openedFor st steps = []) ∨
    ∃ name h, base.file? st = some name ∧ σ.handle? st = some h ∧
      openedFor st steps = [⟨h, base.pathOf name, base.mode st⟩]
  /-- Only the file of the stream that a use asks for is tried. -/
  tried : ∀ step ∈ steps, ∀ t ∈ tried step.trace, ∃ st name, step.AsksFor st ∧ base.file? st = some name ∧
    t = (base.pathOf name, base.mode st)

theorem Uses.accounted (hunused : base.Unused) (h : Uses base steps σ) : Accounted base steps σ := by
  induction h with
  | start => exact ⟨.rfl, fun st => .inl ⟨hunused.handles st, rfl⟩, fun _ hstep => absurd hstep List.not_mem_nil⟩
  | @next steps σ after step hbefore hstep ih =>
    have hdid := Use.act_makes hstep
    refine ⟨ih.setup.trans hdid.sameSetup, fun st => ?_, ?_⟩
    · rw [openedFor_snoc]
      rcases hdid.effect with ⟨heffect, -⟩ | ⟨hclose, htrace, rfl⟩
      · generalize opened step.trace = new at heffect
        cases heffect with
        | nothing howned hhandle =>
          rw [hhandle, ite_self, List.append_nil]
          exact ih.opened st
        | @opens st' name h _ hst hwaits howned hhandle =>
          rw [hhandle]
          by_cases hsame : st = st'
          · subst hsame
            have hnone : openedFor st steps = [] := by
              rcases ih.opened st with ⟨-, hnone⟩ | ⟨name', h', -, hhandle', -⟩
              · exact hnone
              · rw [hwaits.handle] at hhandle'
                cases hhandle'
            have hfile : base.file? st = some name := (ih.setup.file? st).symm.trans hwaits.file
            have hasks : step.AsksFor st := hst
            rw [if_pos hasks, hnone, List.nil_append, ih.setup.pathOf, ih.setup.mode]
            exact .inr ⟨name, h, hfile, Streams.handle?_owning h, rfl⟩
          · have hother : ¬ step.AsksFor st := fun hst' => hsame (Option.some.inj (hst'.symm.trans hst))
            rw [if_neg hother, List.append_nil, Streams.handle?_owning_of_ne h hsame]
            exact ih.opened st
      · have hother : ¬ step.AsksFor st := by
          simp [Used.AsksFor, hclose, Use.stream?]
        rw [if_neg hother, List.append_nil]
        have hsame : ∀ st, ({ σ with owned := [] } : Streams).handle? st = σ.handle? st := fun st => by cases st <;> rfl
        rw [hsame]
        exact ih.opened st
    · intro s hs t ht
      rcases List.mem_append.1 hs with hs | hs
      · exact ih.tried s hs t ht
      · cases List.mem_singleton.1 hs
        obtain ⟨st, name, hst, hwaits, rfl⟩ := hdid.tried t ht
        rw [ih.setup.pathOf, ih.setup.mode]
        exact ⟨st, name, hst, (ih.setup.file? st).symm.trans hwaits.file, rfl⟩

/-! ## What is open is owned -/

/-- Closing all that is held leaves nothing. -/
theorem heldAfter_closed {held : List Opening} :
    heldAfter held ((held.map (·.handle)).map fun h => ⟨.close h, ()⟩) = [] := by
  induction held with
  | nil => rfl
  | cons o held ih => simpa [Exchange.holds, Call.holds] using ih

/-- The files that are open are those that are owned. -/
theorem Uses.held_eq_owned (hunused : base.Unused) (h : Uses base steps σ) :
    (heldAfter [] (exchanges steps)).map (·.handle) = σ.owned := by
  induction h with
  | start => exact hunused.owned.symm
  | @next steps σ after step hbefore hstep ih =>
    rw [exchanges_snoc, heldAfter_append]
    generalize heldAfter [] (exchanges steps) = held at ih ⊢
    rcases (Use.act_makes hstep).effect with ⟨heffect, hafter⟩ | ⟨hclose, htrace, rfl⟩
    · rw [hafter]
      generalize opened step.trace = new at heffect
      cases heffect with
      | nothing howned hhandle => exact ih.trans howned.symm
      | opens hst hwaits howned hhandle =>
        rw [howned, ← ih]
        rfl
    · rw [htrace, ← ih, heldAfter_closed]
      rfl

/-- What is open after some uses is what is owned, and closing gives all of it back. -/
structure Owning (steps : List Used) (σ : Streams) : Prop where
  held : (heldAfter [] (exchanges steps)).map (·.handle) = σ.owned
  distinct : Fresh [] (exchanges steps) → σ.owned.Nodup
  closes : ∀ {trace result after}, makes Use.close.act σ trace result after →
    result = .ok () ∧ heldAfter [] (exchanges steps ++ trace) = []
  /-- Closing once more does nothing. -/
  again : ∀ {trace result after again result' last}, makes Use.close.act σ trace result after →
    makes Use.close.act after again result' last → again = [] ∧ result' = .ok () ∧ last = after

theorem Uses.owning (hunused : base.Unused) (h : Uses base steps σ) : Owning steps σ where
  held := h.held_eq_owned hunused
  distinct hfresh := by
    rw [← h.held_eq_owned hunused]
    exact nodup_heldAfter hfresh List.nodup_nil
  closes hclose := by
    obtain ⟨rfl, rfl, -⟩ := Streams.close_makes hclose
    rw [heldAfter_append, ← h.held_eq_owned hunused, heldAfter_closed]
    exact ⟨rfl, rfl⟩
  again hclose hagain := by
    obtain ⟨-, -, rfl⟩ := Streams.close_makes hclose
    obtain ⟨rfl, rfl, rfl⟩ := Streams.close_makes hagain
    exact ⟨rfl, rfl, rfl⟩

/-! ## Diagnostics -/

/-- The console refuses nothing that is told on it. -/
def ConsoleTakes (trace : List Exchange) : Prop :=
  ∀ (data : Bytes) (reply : Except Errno Unit), (⟨.write .err data, reply⟩ : Exchange) ∈ trace → reply = .ok ()

/-- Where diagnostics have gone so far. -/
inductive Diagnosed (base : Streams) (steps : List Used) (σ : Streams) : Prop
  /-- They have no file and go to the console. -/
  | console (hfile : base.file? .stderr = none) (htold : toldOnConsole (exchanges steps) = linesOf steps)
  /-- Their file was never asked for. -/
  | unasked {name : String} (hfile : base.file? .stderr = some name) (hhandle : σ.stderr = none)
      (hsound : σ.stderrFailed = false) (hnone : ∀ step ∈ steps, ¬ step.AsksFor .stderr)
      (htold : toldOnConsole (exchanges steps) = [])
  /-- Their file is open, and nothing of them has gone to the console. -/
  | file {name : String} {h : Handle} (hfile : base.file? .stderr = some name) (hhandle : σ.stderr = some h)
      (hsound : σ.stderrFailed = false) (htold : toldOnConsole (exchanges steps) = [])
  /-- Their file could not be opened when it was asked for first. That was told, all diagnostics came after it on
      the console, and the file was not tried again. A diagnostic is lost only if the console refused to be told. -/
  | failed {name : String} {fault : Fault} {before after : List Used} {first : Used} {then_ : Streams}
      {attempt rest : List Exchange} {own : List Bytes} (hfile : base.file? .stderr = some name) (hfailed : σ.stderrFailed = true)
      (hsteps : steps = before ++ first :: after) (hbefore : ∀ step ∈ before, ¬ step.AsksFor .stderr)
      (hfirst : first.AsksFor .stderr) (htrace : first.trace = attempt ++ rest)
      (hattempt : makes (Streams.openOwned name .truncate) then_ attempt (.error fault) then_)
      (htold : toldOnConsole (exchanges steps) = utf8Line (fault.about name) :: (own ++ linesOf after))
      (hown : ConsoleTakes first.trace → own = first.use.lines)
      (hafter : ∀ step ∈ after, step.AsksFor .stderr → tried step.trace = [])

section Diagnosed

variable {after : Streams} {step : Used}

/-- A use that is no matter of diagnostics leaves it at where they went before. -/
theorem Diagnosed.silent (h : Diagnosed base steps σ) (hother : ¬ step.AsksFor .stderr)
    (htold : toldOnConsole step.trace = []) (hlines : step.use.lines = []) (hhandle : after.stderr = σ.stderr)
    (hfailed : after.stderrFailed = σ.stderrFailed) : Diagnosed base (steps ++ [step]) after := by
  have htold' : toldOnConsole (exchanges (steps ++ [step])) = toldOnConsole (exchanges steps) := by
    rw [exchanges_snoc, toldOnConsole_append, htold, List.append_nil]
  have hlines' : linesOf (steps ++ [step]) = linesOf steps := by
    rw [linesOf_snoc, hlines, List.append_nil]
  cases h with
  | console hfile told => exact .console hfile (by rw [htold', hlines', told])
  | unasked hfile hnone hsound hbefore told =>
    refine .unasked hfile (hhandle.trans hnone) (hfailed.trans hsound) ?_ (htold'.trans told)
    exact List.forall_mem_append.2 ⟨hbefore, List.forall_mem_singleton.2 hother⟩
  | file hfile hopen hsound told =>
    exact .file hfile (hhandle.trans hopen) (hfailed.trans hsound) (htold'.trans told)
  | @failed name fault before later first _ _ _ own hfile hlost hsteps hbefore hfirst htrace hattempt told hown hlater =>
    have hsnoc : steps ++ [step] = before ++ first :: (later ++ [step]) := by simp [hsteps]
    have hlater' : linesOf (later ++ [step]) = linesOf later := by
      rw [linesOf_snoc, hlines, List.append_nil]
    refine .failed hfile (hfailed.trans hlost) hsnoc hbefore hfirst htrace hattempt ?_ hown ?_
    · rw [htold', told, hlater']
    · exact List.forall_mem_append.2 ⟨hlater, List.forall_mem_singleton.2 fun h => absurd h hother⟩

/-- A use that asks for the file for diagnostics. -/
theorem Diagnosed.asked (h : Diagnosed base steps σ) (hsetup : base.SameSetup σ) (hasks : step.AsksFor .stderr)
    (hdid : Did σ step.use step.trace after) : Diagnosed base (steps ++ [step]) after := by
  obtain ⟨start, rest, r, middle, htrace, hgot, htried, htold, hafter⟩ := hdid.got hasks
  have hsame : after.stderr = middle.stderr := hafter.handle? .stderr
  have htold' : toldOnConsole (exchanges (steps ++ [step])) =
      toldOnConsole (exchanges steps) ++ (toldOnConsole start ++ step.use.aloud r) := by
    rw [exchanges_snoc, toldOnConsole_append, htrace, toldOnConsole_append, htold]
  have hfile : σ.file? .stderr = base.file? .stderr := hsetup.file? .stderr
  cases h with
  | console hnone told =>
    cases hgot with
    | inherited => exact .console hnone (by rw [htold', linesOf_snoc, told]; rfl)
    | lost => exact .console hnone (by rw [htold', linesOf_snoc, told]; rfl)
    | kept hname => cases (hfile.symm.trans hname).symm.trans hnone
    | opens hwaits => cases (hfile.symm.trans hwaits.file).symm.trans hnone
    | refused hne => exact absurd rfl hne
    | failed hwaits => cases (hfile.symm.trans hwaits.file).symm.trans hnone
  | unasked hname hnone hsound hbefore told =>
    cases hgot with
    | inherited hnone => cases (hfile.symm.trans hnone).symm.trans hname
    | lost hlost => cases hsound.symm.trans hlost
    | kept _ hhandle => cases hnone.symm.trans hhandle
    | opens hwaits hmakes =>
      refine .file hname hsame (hafter.stderrFailed.trans hsound) ?_
      rw [htold', told, (Streams.openOwned_makes hmakes).1.quiet]
      rfl
    | refused hne => exact absurd rfl hne
    | @failed name attempt fault reply _ hwaits hmakes hresult =>
      have hfirst : toldOnConsole (exchanges (steps ++ [step])) =
          utf8Line (fault.about name) :: (step.use.aloud r ++ linesOf []) := by
        rw [htold', told, toldOnConsole_append, (Streams.openOwned_makes hmakes).1.quiet]
        simp [toldOnConsole, Exchange.told?, linesOf]
      refine .failed (hfile.symm.trans hwaits.file) hafter.stderrFailed rfl hbefore hasks
        (htrace.trans (List.append_assoc ..)) hmakes hfirst (fun htakes => ?_) (List.forall_mem_nil _)
      have hr : r = .ok none := hresult (htakes (utf8Line (fault.about name)) reply (by simp [htrace]))
      rw [hr]
      rfl
  | file hname hopen hsound told =>
    cases hgot with
    | inherited hnone => cases (hfile.symm.trans hnone).symm.trans hname
    | lost hlost => cases hsound.symm.trans hlost
    | kept _ hhandle =>
      exact .file hname (hsame.trans hopen) (hafter.stderrFailed.trans hsound) (by rw [htold', told]; rfl)
    | opens hwaits => cases hwaits.handle.symm.trans hopen
    | refused hne => exact absurd rfl hne
    | failed hwaits => cases hwaits.handle.symm.trans hopen
  | @failed name fault before later first _ _ _ own hname hlost hsteps hbefore hfirst hfirstTrace hattempt told hown
      hlater =>
    cases hgot with
    | inherited hnone => cases (hfile.symm.trans hnone).symm.trans hname
    | lost =>
      have hsnoc : steps ++ [step] = before ++ first :: (later ++ [step]) := by simp [hsteps]
      refine .failed hname (hafter.stderrFailed.trans hlost) hsnoc hbefore hfirst hfirstTrace hattempt ?_ hown ?_
      · rw [htold', told, linesOf_snoc]
        simp [toldOnConsole, Use.aloud]
      · refine List.forall_mem_append.2 ⟨hlater, List.forall_mem_singleton.2 fun _ => ?_⟩
        rw [htrace, tried_append, htried]
        rfl
    | kept _ _ hsound => cases (hsound rfl).symm.trans hlost
    | opens hwaits => cases (hwaits.sound rfl).symm.trans hlost
    | refused hne => exact absurd rfl hne
    | failed hwaits => cases (hwaits.sound rfl).symm.trans hlost

end Diagnosed

theorem Uses.diagnosed (hunused : base.Unused) (h : Uses base steps σ) : Diagnosed base steps σ := by
  induction h with
  | start =>
    cases hfile : base.file? .stderr with
    | none => exact .console hfile rfl
    | some name => exact .unasked hfile (hunused.handles .stderr) hunused.sound (List.forall_mem_nil _) rfl
  | @next steps σ after step hbefore hstep ih =>
    have hdid := Use.act_makes hstep
    by_cases hasks : step.AsksFor .stderr
    · exact ih.asked (hbefore.accounted hunused).setup hasks hdid
    · obtain ⟨htold, hlines, hhandle, hfailed⟩ := hdid.silent hasks
      exact ih.silent hasks htold hlines hhandle hfailed

/-! ## What the output holds -/

section Output

open Streams World

/-- What is in the file of the output after some uses, if they have opened it. -/
def filled (base : Streams) (old : Bytes) (steps : List Used) : Option Bytes :=
  if ∃ step ∈ steps, step.AsksFor .stdout then
    some (base.begun .stdout old none ++ steps.flatMap (·.use.writes))
  else none

theorem writes_eq_nil {u : Use} (h : u.stream? ≠ some .stdout) : u.writes = [] := by
  cases u with
  | write data => exact absurd rfl h
  | _ => rfl

theorem filled_snoc {old : Bytes} {step : Used} :
    filled base old (steps ++ [step]) =
      if step.AsksFor .stdout then some (base.begun .stdout old (filled base old steps) ++ step.use.writes)
      else filled base old steps := by
  unfold filled
  by_cases hasks : step.AsksFor .stdout
  · by_cases hbefore : ∃ step ∈ steps, step.AsksFor .stdout
    · simp [hasks, hbefore, begun]
    · have hnone : steps.flatMap (·.use.writes) = [] := by
        refine List.flatMap_eq_nil_iff.2 fun s hs => writes_eq_nil fun hst => hbefore ⟨s, hs, hst⟩
      simp [hasks, hbefore, hnone]
  · have hnone : step.use.writes = [] := writes_eq_nil hasks
    simp [hasks, hnone]

/-- The streams while the file of the output is filled, and a world in which it is. -/
structure Filling (base : Streams) (name : String) (old : Bytes) (written : Option Bytes) (σ : Streams) (w : World) :
    Prop where
  setup : base.SameSetup σ
  linked : w.files.Linked
  file : base.file? .stdout = some name
  stands : Stands base σ w .stdout (.stored (base.pathOf name)) old written
  guarded : Guarded base σ w
  apart : ∀ p, base.FileAt .stderr p → w.files.Apart p (base.pathOf name) writing
  left : ∀ e ∈ σ.unwritten, e.2 = [] ∨ σ.stderr = some e.1

variable {name : String} {old : Bytes} {written : Option Bytes} {w w' : World} {after : Streams}

theorem Filling.clear (h : Filling base name old written σ w) : Clear (base.FileAt .stderr) (base.pathOf name) writing w :=
  ⟨h.linked, h.apart⟩

/-- Nothing is left for a file that the output uses. -/
theorem Filling.settled (h : Filling base name old written σ w) {g : Handle}
    (hg : σ.stdout = some g ∨ g = w.opened.size) : σ.SettledAt g := by
  rintro e he rfl
  rcases h.left e he with hnone | herrors
  · exact hnone
  -- What is left is for the file for diagnostics, which is another one.
  exfalso
  obtain ⟨name', f, hfile, hholds⟩ := h.guarded e.1 herrors
  rcases hg with hout | hnew
  · cases h.stands with
    | waiting hwaits => cases hwaits.handle.symm.trans hout
    | inherited hnone => cases h.file.symm.trans hnone
    | asked hfaces =>
      cases hfaces with
      | inherited hnone => cases h.file.symm.trans hnone
      | file hname hhandle hsound hfeeds =>
        cases hhandle.symm.trans hout
        cases h.file.symm.trans hname
        obtain ⟨f', hholds'⟩ := hfeeds.holds
        cases hholds.1.symm.trans hholds'.1
        exact h.apart _ ⟨name', hfile, rfl⟩ _ hholds.2 hholds'.2
  · exact absurd hholds.lt_size (by rw [hnew]; exact Nat.lt_irrefl _)

/-- What is no matter of the output leaves it as it is. -/
theorem Filling.beside (h : Filling base name old written σ w) (hbeside : BesideOutput base σ w after w') :
    Filling base name old written after w' where
  setup := hbeside.setup
  linked := hbeside.beside.linked h.linked
  file := h.file
  stands := by
    refine h.stands.beside hbeside.setup hbeside.stdout nofun hbeside.beside ?_
    rintro p ⟨name', hfile, rfl⟩
    cases h.file.symm.trans hfile
    exact h.clear
  guarded := hbeside.guarded
  apart := fun p hp => hbeside.beside.apart h.linked (h.apart p hp)
  left := by
    intro e he
    rcases hbeside.left e he with hown | hmem
    · exact .inr hown
    · exact (h.left e hmem).imp id (hbeside.kept e.1)

/-- What is done to the output leaves the file for diagnostics as it is. -/
theorem Filling.output {next : Option Bytes} {data : Bytes} (h : Filling base name old written σ w)
    (hstands : Stands base after w' .stdout (.stored (base.pathOf name)) old next) (honly : OnlyAt .stdout σ after)
    (hfed : Fed (.stored (base.pathOf name)) data w w') : Filling base name old next after w' where
  setup := h.setup.trans honly.setup
  linked := hfed.beside.linked h.linked
  file := h.file
  stands := hstands
  guarded := by
    intro g hg
    obtain ⟨name', f, hfile, hholds⟩ := h.guarded g ((honly.others .stderr nofun).symm.trans hg)
    refine ⟨name', f, hfile, hfed.beside.holds ⟨h.linked, ?_⟩ hholds⟩
    intro p hp
    cases hp
    exact (h.apart _ ⟨name', hfile, rfl⟩).symm
  apart := fun p hp => hfed.beside.apart h.linked (h.apart p hp)
  left := by
    intro e he
    rcases honly.left e he with hnone | hmem
    · exact .inl hnone
    · exact (h.left e hmem).imp id ((honly.others .stderr nofun).trans ·)

/-- Each use that does not close the streams goes on filling the file of the output. -/
theorem Filling.use (h : Filling base name old written σ w) {u : Use} (hu : u ≠ .close) :
    runs u.act (fun result after w' =>
      Filling base name old
        (if u.stream? = some .stdout then some (base.begun .stdout old written ++ u.writes) else written) after w' ∧
      ∀ data, u = .write data → result = .ok ()) σ w := by
  cases u with
  | close => exact absurd rfl hu
  | write data =>
    rw [Use.act, Stream.write_eq_put]
    have hne : Stream.stdout ≠ .stdin := nofun
    refine runs_mono ?_ (put_runs hne h.setup h.linked h.stands (fun g hg => h.settled hg) data)
    rintro result after w' ⟨hresult, hstands, honly, hfed⟩
    exact ⟨h.output hstands honly hfed, fun _ _ => hresult⟩
  | error text =>
    refine runs_mono ?_ (error_beside h.setup h.linked h.guarded text)
    exact fun result after w' hbeside => ⟨h.beside hbeside, nofun⟩
  | handle st =>
    cases st with
    | stdin =>
      refine runs_bind (stdinHandle_beside h.setup h.linked h.guarded) ?_ ?_
      · exact fun handle after w' hbeside => (runs_pure _).2 ⟨h.beside hbeside, nofun⟩
      · exact fun fault after w' hbeside => ⟨h.beside hbeside, nofun⟩
    | stderr =>
      refine runs_bind (stderrHandle_beside h.setup h.linked h.guarded) ?_ ?_
      · exact fun handle after w' hbeside => (runs_pure _).2 ⟨h.beside hbeside.1, nofun⟩
      · exact fun fault after w' hbeside => ⟨h.beside hbeside.1, nofun⟩
    | stdout =>
      refine runs_bind (handle_runs nofun h.setup h.linked h.stands) ?_ (by rintro fault after w' ⟨_, ⟨⟩, -⟩)
      rintro handle after w' ⟨_, ⟨⟩, hfaces, honly, hfed, -⟩
      refine (runs_pure _).2 ⟨?_, nofun⟩
      simp only [Use.stream?, if_true, Use.writes, List.append_nil]
      exact h.output (.asked hfaces) honly hfed

/-- Before the streams are used, the file of the output is as it was found. -/
theorem filling_of_unused {spot : Spot} (hunused : base.Unused) (hlinked : w.files.Linked)
    (hfile : base.file? .stdout = some name) (htarget : w.files.Target (base.pathOf name) spot old)
    (hapart : ∀ p, base.FileAt .stderr p → w.files.writingSpot p ≠ .ok spot) : Filling base name old none base w where
  setup := .rfl
  linked := hlinked
  file := hfile
  stands := .waiting ⟨hfile, hunused.handles .stdout, nofun⟩ hfile (.stored htarget)
  guarded := by
    intro h hh
    cases (hunused.handles .stderr).symm.trans hh
  apart := by
    intro p hp s hs hs'
    cases htarget.leads.symm.trans hs'
    exact hapart p hp hs
  left := by
    rw [hunused.settled]
    exact List.forall_mem_nil _

/-- As long as the streams are not closed, all that is written comes to the file of the output, in order. -/
theorem Uses.filling (h : Uses base steps σ) (hopen : ∀ step ∈ steps, step.use ≠ .close)
    (hserves : w.Serves (exchanges steps) w') (hfilling : Filling base name old none base w) :
    Filling base name old (filled base old steps) σ w' ∧
      ∀ step ∈ steps, ∀ data, step.use = .write data → step.result = .ok () := by
  induction h generalizing w' with
  | start =>
    obtain rfl : w' = w := hserves
    exact ⟨hfilling, List.forall_mem_nil _⟩
  | @next steps σ after step hbefore hstep ih =>
    rw [exchanges_snoc, serves_append] at hserves
    obtain ⟨middle, hfirst, hrest⟩ := hserves
    rw [List.forall_mem_append, List.forall_mem_singleton] at hopen
    obtain ⟨hmiddle, hwritten⟩ := ih hopen.1 hfirst
    obtain ⟨hafter, hwrites⟩ := runs_of_makes hstep hrest (hmiddle.use hopen.2)
    rw [filled_snoc]
    exact ⟨hafter, List.forall_mem_append.2 ⟨hwritten, List.forall_mem_singleton.2 hwrites⟩⟩

/-- The file of the output after some uses. -/
structure Filled (base : Streams) (steps : List Used) (name : String) (old : Bytes) (w : World) : Prop where
  /-- Nothing that was written was refused. -/
  accepted : ∀ step ∈ steps, ∀ data, step.use = .write data → step.result = .ok ()
  /-- The file is as it was if the output was not asked for. -/
  unasked : (∀ step ∈ steps, ¬ step.AsksFor .stdout) → ∃ spot, w.files.Target (base.pathOf name) spot old
  /-- Else it has all that was written, after what it held if it was to be continued. -/
  asked : (∃ step ∈ steps, step.AsksFor .stdout) → w.files.fetch root (base.pathOf name) =
    .ok ((if base.redirects.append then old else []) ++ steps.flatMap (·.use.writes))

theorem Filling.filled (h : Filling base name old (filled base old steps) σ w)
    (haccepted : ∀ step ∈ steps, ∀ data, step.use = .write data → step.result = .ok ()) :
    Filled base steps name old w where
  accepted := haccepted
  unasked hnone := by
    have hstands := h.stands
    rw [Conch.filled, if_neg fun ⟨step, hstep, hasks⟩ => hnone step hstep hasks] at hstands
    cases hstands with
    | @waiting name' hwaits hfile hlands =>
      obtain rfl : name = name' := Option.some.inj (h.file.symm.trans hfile)
      generalize houtlet : Outlet.stored (base.pathOf name) = o at hlands
      cases hlands with
      | stored htarget => exact ⟨_, htarget⟩
      | device _ _ _ ho => exact absurd (houtlet ▸ ho) Device.outlet?_ne_stored
    | inherited hfile => cases h.file.symm.trans hfile
  asked hasked := by
    have hstands := h.stands
    rw [Conch.filled, if_pos hasked] at hstands
    cases hstands with
    | asked hfaces =>
      cases hfaces with
      | inherited hfile => cases h.file.symm.trans hfile
      | file hfile hhandle hsound hfeeds =>
        cases h.file.symm.trans hfile
        cases hfeeds with
        | stored hholds htarget hend => exact htarget.fetch rfl
        | device _ _ _ ho => exact absurd ho Device.outlet?_ne_stored

/-- Closing files changes nothing in those that are stored. -/
theorem files_of_serves_close {handles : List Handle} (h : w.Serves (handles.map fun h => ⟨.close h, ()⟩) w') :
    w'.files = w.files := by
  have hafter : w' = handles.foldl World.close w := by
    induction handles generalizing w with
    | nil => exact h
    | cons handle rest ih => exact ih h.2
  rw [hafter]
  exact (closeAll_view handles w).files

theorem Filled.of_files (h : Filled base steps name old w) (hfiles : w'.files = w.files) :
    Filled base steps name old w' := by
  refine ⟨h.accepted, ?_, ?_⟩
  · rw [hfiles]
    exact h.unasked
  · rw [hfiles]
    exact h.asked

/-- At the first close, the file of the output has all that was written. -/
theorem Uses.filled {spot : Spot} {trace : List Exchange} {result : Except Fault Unit} {w₁ w₂ : World}
    (hunused : base.Unused) (h : Uses base steps σ) (hopen : ∀ step ∈ steps, step.use ≠ .close)
    (hclose : makes Use.close.act σ trace result after) (hserves : w.Serves (exchanges steps) w₁)
    (hcloses : w₁.Serves trace w₂) (hlinked : w.files.Linked) (hfile : base.file? .stdout = some name)
    (htarget : w.files.Target (base.pathOf name) spot old)
    (hapart : ∀ p, base.FileAt .stderr p → w.files.writingSpot p ≠ .ok spot) : Filled base steps name old w₂ := by
  have hstart := filling_of_unused hunused hlinked hfile htarget hapart
  obtain ⟨hfilling, haccepted⟩ := h.filling hopen hserves hstart
  obtain ⟨rfl, -, -⟩ := close_makes hclose
  exact (hfilling.filled haccepted).of_files (files_of_serves_close hcloses)

end Output

/-! ## All uses -/

/-- Whatever is done with the streams of a stage, and whatever comes of it: each file is opened once at most, what is
    open is owned, and diagnostics are told once the file for them is lost. If nothing else works on the files and
    the output is not also the file for diagnostics, it has all that was written when it is closed. -/
theorem uses_open_once_and_own (s : Stage) (directory : Path) (toPipe : Bool)
    (h : Uses (.ofStage s directory toPipe) steps σ) :
    Accounted (.ofStage s directory toPipe) steps σ ∧ Owning steps σ ∧
      Diagnosed (.ofStage s directory toPipe) steps σ ∧
      ∀ (name : String) (spot : Spot) (old : Bytes) (after : Streams) (trace : List Exchange)
        (result : Except Fault Unit) (w w₁ w₂ : World),
        s.stdout? = some name → (∀ step ∈ steps, step.use ≠ .close) →
        makes Use.close.act σ trace result after → w.Serves (exchanges steps) w₁ → w₁.Serves trace w₂ →
        w.files.Linked → w.files.Target (σ.pathOf name) spot old →
        (∀ other, s.stderr? = some other → w.files.writingSpot (σ.pathOf other) ≠ .ok spot) →
        Filled (.ofStage s directory toPipe) steps name old w₂ := by
  have hunused := Streams.unused_ofStage s directory toPipe
  have haccounted := h.accounted hunused
  refine ⟨haccounted, h.owning hunused, h.diagnosed hunused, ?_⟩
  intro name spot old after trace result w w₁ w₂ hname hopen hclose hserves hcloses hlinked htarget hother
  rw [haccounted.setup.pathOf] at htarget
  rw [← Streams.ofStage_stdout s directory toPipe] at hname
  refine h.filled hunused hopen hclose hserves hcloses hlinked hname htarget ?_
  rintro p ⟨other, hfile, rfl⟩
  rw [← haccounted.setup.pathOf]
  exact hother other ((Streams.ofStage_stderr s directory toPipe).symm.trans hfile)

/-- Every sequence of uses has a course in every world. -/
theorem exists_uses (base : Streams) (uses : List Use) (w : World) :
    ∃ steps σ w', Uses base steps σ ∧ steps.map (·.use) = uses ∧ w.Serves (exchanges steps) w' := by
  induction uses using List.reverseRecOn with
  | nil => exact ⟨[], base, w, .start, rfl, rfl⟩
  | append_singleton uses u ih =>
    obtain ⟨steps, σ, middle, h, huses, hserves⟩ := ih
    rcases hrun : Job.run (u.act σ) middle with ⟨⟨result, after⟩, w'⟩
    have hmakes := Job.makes_traceIn (u.act σ) middle
    have hnext := Job.serves_traceIn (u.act σ) middle
    rw [hrun] at hmakes hnext
    refine ⟨steps ++ [⟨u, _, result⟩], after, w', h.next (makes_iff.2 hmakes), by simp [huses], ?_⟩
    rw [exchanges_snoc]
    exact World.serves_append.2 ⟨middle, hserves, hnext⟩

/-- A world with the file `/f` and nothing else. -/
def singleWorld : World :=
  { files := ⟨#[.dir 0 [("f", 1)], .file (utf8Line "old") false]⟩ }

/-- `echo >> f 2> x/e`, where there is no directory `x`. -/
def strayStage : Stage where
  executable := "echo"
  args := []
  redirects := some { stdout := some "f", stderr := some "x/e", append := true }
  executable_ok := Echo.executable_ok

def strayUses : List Use :=
  [.error "one", .write (utf8Line "a"), .handle .stderr, .error "two", .handle .stdin, .write (utf8Line "b")]

/-- The file is continued although diagnostics cannot come to theirs. -/
theorem uses_open_once_and_own_beside_lost_file :
    ∃ steps σ w₁ w₂ trace result after, Uses (.ofStage strayStage .rootPath false) steps σ ∧
      steps.map (·.use) = strayUses ∧ singleWorld.Serves (exchanges steps) w₁ ∧
      makes Use.close.act σ trace result after ∧ w₁.Serves trace w₂ ∧
      Accounted (.ofStage strayStage .rootPath false) steps σ ∧ Owning steps σ ∧
      Diagnosed (.ofStage strayStage .rootPath false) steps σ ∧ σ.owned.Nodup ∧
      w₂.files.fetch FileSystem.root "/f" = .ok (utf8Line "old" ++ utf8Line "a" ++ utf8Line "b") := by
  obtain ⟨steps, σ, w₁, h, huses, hserves⟩ := exists_uses (.ofStage strayStage .rootPath false) strayUses singleWorld
  rcases hrun : Job.run (Use.close.act σ) w₁ with ⟨⟨result, after⟩, w₂⟩
  have hclose := Job.makes_traceIn (Use.close.act σ) w₁
  have hcloses := Job.serves_traceIn (Use.close.act σ) w₁
  rw [hrun] at hclose hcloses
  obtain ⟨haccounted, howning, hdiagnosed, hfilled⟩ := uses_open_once_and_own strayStage .rootPath false h
  have hmem : ∀ step ∈ steps, step.use ∈ strayUses := fun step hstep => huses ▸ List.mem_map_of_mem hstep
  have hopen : ∀ step ∈ steps, step.use ≠ .close := fun step hstep hclose =>
    absurd (hclose ▸ hmem step hstep) (by decide)
  have hpath : σ.pathOf "f" = "/f" := (haccounted.setup.pathOf "f").trans (by decide +kernel)
  have hother : σ.pathOf "x/e" = "/x/e" := (haccounted.setup.pathOf "x/e").trans (by decide +kernel)
  have htarget : singleWorld.files.Target (σ.pathOf "f") (.found 1) (utf8Line "old") := by
    rw [hpath]
    exact ⟨by decide +kernel, by decide +kernel, rfl⟩
  have hsound : singleWorld.files.Sound := by decide
  have hend := hfilled "f" (.found 1) (utf8Line "old") after _ result singleWorld w₁ w₂ rfl hopen (makes_iff.2 hclose)
    hserves hcloses hsound.linked htarget ?_
  · refine ⟨steps, σ, w₁, w₂, _, result, after, h, huses, hserves, makes_iff.2 hclose, hcloses, haccounted, howning,
      hdiagnosed, howning.distinct (hserves.fresh (List.forall_mem_nil _)), ?_⟩
    have hasked : ∃ step ∈ steps, step.AsksFor .stdout := by
      have hwrite : .write (utf8Line "a") ∈ steps.map (·.use) := by
        rw [huses]
        decide
      obtain ⟨step, hstep, huse⟩ := List.mem_map.1 hwrite
      exact ⟨step, hstep, congrArg Use.stream? huse⟩
    have hwrites : steps.flatMap (·.use.writes) = strayUses.flatMap Use.writes := by
      rw [← huses, List.flatMap_map]
    have hfetch := hend.asked hasked
    rw [hwrites, ← haccounted.setup.pathOf, hpath] at hfetch
    rw [hfetch]
    decide
  · rintro _ ⟨⟩
    rw [hother]
    decide +kernel

end Conch
