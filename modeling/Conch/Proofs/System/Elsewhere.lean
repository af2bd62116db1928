-- SUMMARY: What opening and writing at some paths leaves alone: other paths, other open files, and what is read elsewhere.
import Mathlib.Logic.Relation
import Conch.Proofs.Stage.Echo

/-!
# What is left alone

A stage opens and writes the files of its own streams. What is different afterwards is
at the paths of these files: `World.Beside` holds between two worlds when whatever was
changed was changed there. Paths that lead elsewhere can be read as before, also those
that lead nowhere, and files that are open elsewhere are as they were.
-/

namespace Conch

namespace FileSystem

variable {fs fs' : FileSystem} {spot : Spot} {content : Bytes} {how : Walk}

/-! ## Walks that fail -/

/-- A walk fails as before, except that a file may now be in the way where there was nothing. -/
def SameRefusal (e e' : Errno) : Prop :=
  e' = e ∨ e = .noEntry ∧ e' = .notDirectory

theorem SameRefusal.meansAbsent {e e' : Errno} (h : SameRefusal e e') : e'.meansAbsent = e.meansAbsent := by
  rcases h with rfl | ⟨rfl, rfl⟩
  · rfl
  · rfl

namespace Wrote

theorem not_dir (h : Wrote fs spot content fs') {i : Ino} (hi : ∀ parent entries, fs.node? i ≠ some (.dir parent entries)) :
    ∀ parent entries, fs'.node? i ≠ some (.dir parent entries) := by
  intro parent entries hdir
  by_cases hspot : i = fs.nodeAt spot
  · obtain ⟨executable, hfile⟩ := h.file
    rw [hspot, hfile] at hdir
    cases hdir
  · have hbare := h.others i hspot
    rw [hdir] at hbare
    obtain ⟨n, hn, heq⟩ := Option.map_eq_some_iff.1 hbare.symm
    obtain ⟨entries', rfl⟩ := bare_eq_dir.1 heq
    exact hi parent entries' hn

/-- What a walk is refused for, one name after the other. -/
theorem walkWith_error (h : Wrote fs spot content fs') (hspot : fs.Writable spot)
    {follow follow' : Ino → List String → Except Errno Spot}
    (hfollow : ∀ here names e, follow here names = .error e →
      ∃ e', follow' here names = .error e' ∧ SameRefusal e e')
    {here : Ino} {names : List String} {e : Errno} (herror : fs.walkWith follow how here names = .error e) :
    ∃ e', fs'.walkWith follow' how here names = .error e' ∧ SameRefusal e e' := by
  induction names generalizing here with
  | nil => cases herror
  | cons name rest ih =>
    unfold walkWith at herror
    split at herror
    case h_2 hdir =>
      cases herror
      refine ⟨.notDirectory, ?_, .inl rfl⟩
      unfold walkWith
      split
      · exact absurd ‹_› (h.not_dir hdir _ _)
      · rfl
    rename_i parent entries hdir
    obtain ⟨entries', hdir'⟩ := h.dir hspot.held hdir
    unfold walkWith
    rw [hdir']
    dsimp only
    split at herror
    · rw [if_pos ‹_›]
      exact ih herror
    rw [if_neg ‹_›]
    split at herror
    · rw [if_pos ‹_›]
      exact ih herror
    rw [if_neg ‹_›]
    split at herror
    · rw [if_pos ‹_›]
      exact ⟨e, herror, .inl rfl⟩
    rw [if_neg ‹_›]
    split at herror
    · rw [if_pos ‹_›]
      exact ⟨e, herror, .inl rfl⟩
    rw [if_neg ‹_›]
    rw [← entry?_of_dir name hdir] at herror
    rw [← entry?_of_dir name hdir']
    split at herror
    · rename_i hentry
      split at herror
      · cases herror
      rename_i hrest
      cases herror
      rw [h.names]
      by_cases hfree : spot = .missing here name
      -- The name that was free stands for the new file, and the walk cannot go on from there.
      · obtain ⟨executable, hfile⟩ := h.file
        rw [if_pos hfree]
        dsimp only
        rw [hfile]
        cases rest with
        | nil => exact absurd rfl hrest
        | cons next rest =>
          refine ⟨.notDirectory, ?_, .inr ⟨rfl, rfl⟩⟩
          simp [walkWith, hfile]
      · rw [if_neg hfree, hentry]
        simp [hrest, SameRefusal]
    · rename_i i hentry
      rw [h.entry hspot.there hentry]
      dsimp only
      split at herror
      · rename_i target hlink
        rw [(h.link_iff hspot.held).2 hlink]
        dsimp only
        split at herror
        · cases herror
        rw [if_neg ‹_›]
        split at herror
        · rw [if_pos ‹_›]
          exact ⟨e, herror, .inl rfl⟩
        · rw [if_neg ‹_›]
          exact hfollow _ _ _ herror
      · rename_i hplain
        split
        · rename_i target hlink
          exact absurd ((h.link_iff hspot.held).1 hlink) (hplain target)
        · exact ih herror

theorem walk_error (h : Wrote fs spot content fs') (hspot : fs.Writable spot) {links : Nat} {here : Ino}
    {names : List String} {e : Errno} (herror : fs.walk how links here names = .error e) :
    ∃ e', fs'.walk how links here names = .error e' ∧ SameRefusal e e' := by
  induction links generalizing here names e with
  | zero =>
    refine h.walkWith_error hspot ?_ herror
    rintro here names e ⟨⟩
    exact ⟨_, rfl, .inl rfl⟩
  | succ links ih => exact h.walkWith_error hspot (fun _ _ _ => ih) herror

/-- A path that led nowhere for some cause still does, and what it means is the same. -/
theorem locate_error (h : Wrote fs spot content fs') (hspot : fs.Writable spot) {base : Ino} {path : String}
    {e : Errno} (herror : fs.locate base path how = .error e) :
    ∃ e', fs'.locate base path how = .error e' ∧ SameRefusal e e' := by
  unfold FileSystem.locate at herror ⊢
  split at herror
  · rw [if_pos ‹_›]
    exact ⟨e, herror, .inl rfl⟩
  rw [if_neg ‹_›]
  split at herror
  · rw [if_pos ‹_›]
    exact ⟨e, herror, .inl rfl⟩
  · rw [if_neg ‹_›]
    exact h.walk_error hspot herror

end Wrote

/-! ## Paths that lead apart -/

/-- What is found under a path to be written to is found when it is looked for, too. -/
theorem locate_of_writingSpot {path : String} {s : Spot} (h : fs.writingSpot path = .ok s) :
    fs.locate root path { followLast := true } = .ok s := by
  obtain ⟨hempty, hfits, hwalks⟩ := locate_eq_ok_iff.1 h
  exact locate_eq_ok_iff.2 ⟨hempty, hfits, hwalks.asking⟩

/-- A path does not lead to where something is written under another path. -/
def Apart (fs : FileSystem) (written path : String) (how : Walk) : Prop :=
  ∀ s, fs.writingSpot written = .ok s → fs.locate root path how ≠ .ok s

theorem Apart.symm {path path' : String} (h : fs.Apart path path' { followLast := true, creating := true }) :
    fs.Apart path' path { followLast := true, creating := true } :=
  fun s hs hs' => h s hs' hs

/-- What can be found out about a path: its kind and its content, or nothing if it leads nowhere. -/
def look (fs : FileSystem) (path : String) : Except Errno (Option (FileKind × Except Errno Bytes)) :=
  match fs.stat root path true with
  | .ok kind => .ok (some (kind, fs.fetch root path))
  | .error e => if e.meansAbsent then .ok none else .error e

namespace Wrote

/-- Paths that lead apart still do, whatever was written. -/
theorem apart (h : Wrote fs spot content fs') (hspot : fs.Writable spot) (hlinked : fs.Linked)
    {written path : String} (hapart : fs.Apart written path how) : fs'.Apart written path how := by
  intro s hwritten hpath
  cases hbefore : fs.writingSpot written with
  | error e =>
    obtain ⟨e', herror, -⟩ := h.locate_error hspot hbefore
    cases herror.symm.trans hwritten
  | ok s₀ =>
    have hafter : fs'.writingSpot written = .ok (fs.moved spot s₀) := h.locate hspot hbefore
    cases hafter.symm.trans hwritten
    cases hlocate : fs.locate root path how with
    | error e =>
      obtain ⟨e', herror, -⟩ := h.locate_error hspot hlocate
      cases herror.symm.trans hpath
    | ok r =>
      have hmoved := Except.ok.inj ((h.locate hspot hlocate).symm.trans hpath)
      have hsame : r = s₀ :=
        (moved_inj (there_of_locate hlinked hbefore).known (there_of_locate hlinked hlocate).known).1 hmoved
      exact hapart s₀ hbefore (hsame ▸ hlocate)

/-- What can be found out about a path that does not lead to what was written is the same. -/
theorem look (h : Wrote fs spot content fs') (hspot : fs.Writable spot) (hlinked : fs.Linked) {path : String}
    (hne : fs.locate root path { followLast := true } ≠ .ok spot) : fs'.look path = fs.look path := by
  cases hlocate : fs.locate root path { followLast := true } with
  | error e =>
    obtain ⟨e', herror, hsame⟩ := h.locate_error hspot hlocate
    have hstat : fs.stat root path true = .error e := by simp [stat, find, hlocate]
    have hstat' : fs'.stat root path true = .error e' := by simp [stat, find, herror]
    simp only [FileSystem.look, hstat, hstat', hsame.meansAbsent]
    split
    · rfl
    · rename_i hpresent
      rcases hsame with rfl | ⟨rfl, rfl⟩
      · rfl
      · exact absurd rfl hpresent
  | ok s =>
    have hspares := h.spares hspot
    have hs : s ≠ spot := fun heq => hne (heq ▸ hlocate)
    have hstat : fs'.stat root path true = fs.stat root path true := by
      simp only [stat, find, hlocate, hspares.paths path _ s hlocate hs]
      cases s with
      | missing d name => rfl
      | found i =>
        have hthere : (fs.node? i).isSome = true := there_of_locate hlinked hlocate
        obtain ⟨n, hn⟩ := Option.isSome_iff_exists.1 hthere
        have hbare := hspares.nodes i hthere hs
        rw [hn] at hbare
        obtain ⟨n', hn', heq⟩ := Option.map_eq_some_iff.1 hbare
        simp only [hn, hn']
        cases n <;> cases n' <;> cases heq <;> rfl
    simp only [FileSystem.look, hstat, hspares.fetch hlinked hlocate hs]

end Wrote

/-- A stored file can be written. -/
theorem writable_of_file {i : Ino} {old : Bytes} {executable : Bool} (hfile : fs.node? i = some (.file old executable))
    (content : Bytes) :
    fs.Writable (.found i) ∧ Wrote fs (.found i) content (fs.setNode i (.file content executable)) := by
  have hheld : fs.held? (.found i) = some old := by simp [held?, hfile, Node.stored?]
  exact ⟨⟨by simp [There, hfile], by simp [hheld]⟩, (Wrote.refl hheld).setNode content executable⟩

/-- Nothing was changed, or a file was written at one of some paths. -/
def Amended (P : String → Prop) (fs fs' : FileSystem) : Prop :=
  fs' = fs ∨ ∃ path spot content, P path ∧ fs.writingSpot path = .ok spot ∧ fs.Writable spot ∧
    Wrote fs spot content fs'

end FileSystem

/-! ## Worlds beside some paths -/

namespace World

open FileSystem

/-- One change to a world, at one of some paths. -/
structure Nudge (P : String → Prop) (w w' : World) : Prop where
  files : w.files.Amended P w'.files
  /-- Files that are open elsewhere are as they were. -/
  opened : ∀ h f, w.openFile? h = some f → (∀ path, P path → w.files.writingSpot path ≠ .ok (.found f.node)) →
    w'.openFile? h = some f

/-- All that was changed in a world was changed at some paths. -/
def Beside (P : String → Prop) : World → World → Prop :=
  Relation.ReflTransGen (Nudge P)

/-- A path leads apart from some others. -/
structure Clear (P : String → Prop) (path : String) (how : Walk) (w : World) : Prop where
  linked : w.files.Linked
  apart : ∀ written, P written → w.files.Apart written path how

variable {P : String → Prop} {path : String} {how : Walk} {w w' : World}

theorem Nudge.linked (h : Nudge P w w') (hlinked : w.files.Linked) : w'.files.Linked := by
  rcases h.files with hsame | ⟨_, spot, content, _, _, _, hwrote⟩
  · rwa [hsame]
  · exact hwrote.linked hlinked

theorem Nudge.apart {written : String} (h : Nudge P w w') (hlinked : w.files.Linked)
    (hapart : w.files.Apart written path how) : w'.files.Apart written path how := by
  rcases h.files with hsame | ⟨_, spot, content, _, _, hspot, hwrote⟩
  · rwa [hsame]
  · exact hwrote.apart hspot hlinked hapart

theorem Nudge.mono {P' : String → Prop} (h : Nudge P w w') (hP : ∀ path, P path → P' path) : Nudge P' w w' where
  files := h.files.imp id fun ⟨path, spot, content, hpath, hrest⟩ => ⟨path, spot, content, hP path hpath, hrest⟩
  opened g f hf hnot := h.opened g f hf fun path hpath => hnot path (hP path hpath)

theorem Beside.mono {P' : String → Prop} (h : Beside P w w') (hP : ∀ path, P path → P' path) : Beside P' w w' :=
  Relation.ReflTransGen.mono (fun _ _ hnudge => Nudge.mono hnudge hP) _ _ h

/-- What every change elsewhere keeps is kept. -/
theorem Beside.keeps {Φ : World → Prop} (h : Beside P w w') (hclear : Clear P path how w)
    (hstep : ∀ w w', Nudge P w w' → Clear P path how w → Φ w → Φ w') (hΦ : Φ w) :
    Φ w' ∧ Clear P path how w' := by
  induction h with
  | refl => exact ⟨hΦ, hclear⟩
  | tail _ hnudge ih =>
    obtain ⟨hΦ, hclear⟩ := ih
    refine ⟨hstep _ _ hnudge hclear hΦ, hnudge.linked hclear.linked, fun written hwritten => ?_⟩
    exact hnudge.apart hclear.linked (hclear.apart written hwritten)

/-! ### Files that are open -/

/-- A file is open, and it is the one that a path leads to when something is to be written there. -/
def Holds (w : World) (path : String) (h : Handle) (f : OpenFile) : Prop :=
  w.openFile? h = some f ∧ w.files.writingSpot path = .ok (.found f.node)

/-- What a path leads to when something is to be written there. -/
abbrev writing : Walk := { followLast := true, creating := true }

/-- What a path leads to when something is to be read there. -/
abbrev reading : Walk := { followLast := true }

theorem Nudge.spot {s : Spot} (h : Nudge P w w') (hclear : Clear P path writing w)
    (hs : w.files.writingSpot path = .ok s) : w'.files.writingSpot path = .ok s := by
  rcases h.files with hsame | ⟨written, spot, content, hwritten, hleads, hspot, hwrote⟩
  · rwa [hsame]
  · have hne : s ≠ spot := fun heq => hclear.apart written hwritten spot hleads (heq ▸ hs)
    have hlocate : w'.files.writingSpot path = .ok (w.files.moved spot s) := hwrote.locate hspot hs
    rwa [moved_of_ne hne] at hlocate

theorem Nudge.holds {h : Handle} {f : OpenFile} (hnudge : Nudge P w w') (hclear : Clear P path writing w)
    (hholds : w.Holds path h f) : w'.Holds path h f := by
  refine ⟨hnudge.opened h f hholds.1 fun written hwritten hleads => ?_, hnudge.spot hclear hholds.2⟩
  exact hclear.apart written hwritten _ hleads hholds.2

theorem Nudge.target {s : Spot} {content : Bytes} (h : Nudge P w w') (hclear : Clear P path writing w)
    (htarget : w.files.Target path s content) : w'.files.Target path s content := by
  rcases h.files with hsame | ⟨written, spot, content', hwritten, hleads, hspot, hwrote⟩
  · rwa [hsame]
  · have hne : s ≠ spot := fun heq => hclear.apart written hwritten spot hleads (heq ▸ htarget.leads)
    have htarget' := hwrote.target hclear.linked hspot htarget
    rwa [moved_of_ne hne, if_neg hne] at htarget'

theorem Nudge.look (h : Nudge P w w') (hclear : Clear P path reading w) : w'.files.look path = w.files.look path := by
  rcases h.files with hsame | ⟨written, spot, content, hwritten, hleads, hspot, hwrote⟩
  · rw [hsame]
  · exact hwrote.look hspot hclear.linked (hclear.apart written hwritten spot hleads)

theorem Nudge.device {i : Ino} {d : Device} (h : Nudge P w w') (hd : w.files.node? i = some (.device d)) :
    w'.files.node? i = some (.device d) := by
  rcases h.files with hsame | ⟨_, spot, content, _, _, hspot, hwrote⟩
  · rwa [hsame]
  · have hbare := hwrote.others i (ne_nodeAt (by simp [hd]) (ne_found hspot.held hd rfl))
    rw [hd] at hbare
    obtain ⟨n, hn, heq⟩ := Option.map_eq_some_iff.1 hbare
    cases n with
    | device d' =>
      cases heq
      exact hn
    | _ => cases heq

theorem Beside.holds {h : Handle} {f : OpenFile} (hbeside : Beside P w w') (hclear : Clear P path writing w)
    (hholds : w.Holds path h f) : w'.Holds path h f :=
  (hbeside.keeps hclear (fun _ _ hnudge hclear => hnudge.holds hclear) hholds).1

theorem Beside.target {s : Spot} {content : Bytes} (hbeside : Beside P w w') (hclear : Clear P path writing w)
    (htarget : w.files.Target path s content) : w'.files.Target path s content :=
  (hbeside.keeps hclear (fun _ _ hnudge hclear => hnudge.target hclear) htarget).1

theorem Beside.spot {s : Spot} (hbeside : Beside P w w') (hclear : Clear P path writing w)
    (hs : w.files.writingSpot path = .ok s) : w'.files.writingSpot path = .ok s :=
  (hbeside.keeps hclear (fun _ _ hnudge hclear => hnudge.spot hclear) hs).1

/-- What can be found out about a path is the same as long as only paths apart from it are written. -/
theorem Beside.look (hbeside : Beside P w w') (hclear : Clear P path reading w) :
    w'.files.look path = w.files.look path :=
  (hbeside.keeps hclear
    (fun _ _ hnudge hclear hΦ => (hnudge.look hclear).trans hΦ) rfl).1

theorem Beside.device {i : Ino} {d : Device} (hbeside : Beside P w w') (hd : w.files.node? i = some (.device d)) :
    w'.files.node? i = some (.device d) := by
  induction hbeside with
  | refl => exact hd
  | tail _ hnudge ih => exact hnudge.device ih

theorem Beside.linked (hbeside : Beside P w w') (hlinked : w.files.Linked) : w'.files.Linked := by
  induction hbeside with
  | refl => exact hlinked
  | tail _ hnudge ih => exact hnudge.linked ih

theorem Beside.apart {written : String} (hbeside : Beside P w w') (hlinked : w.files.Linked)
    (hapart : w.files.Apart written path how) : w'.files.Apart written path how := by
  have hclear : Clear (· = written) path how w := ⟨hlinked, by rintro _ rfl; exact hapart⟩
  suffices Clear (· = written) path how w' from this.apart written rfl
  induction hbeside with
  | refl => exact hclear
  | tail _ hnudge ih => exact ⟨hnudge.linked ih.linked, fun q hq => hnudge.apart ih.linked (ih.apart q hq)⟩

/-! ### Calls on files that are open -/

theorem nudge_of_files (hfiles : w'.files = w.files) (hopened : ∀ h f, w.openFile? h = some f → w'.openFile? h = some f) :
    Nudge P w w' :=
  ⟨.inl hfiles, fun h f hf _ => hopened h f hf⟩

theorem nudge_of_same (hfiles : w'.files = w.files) (hopened : w'.opened = w.opened) : Nudge P w w' := by
  refine nudge_of_files hfiles fun h f hf => ?_
  unfold openFile? at hf ⊢
  rwa [hopened]

theorem openFile?_push {f g : OpenFile} {h : Handle} (hf : w.openFile? h = some f) (files : FileSystem) :
    World.openFile? { w with files, opened := w.opened.push g } h = some f := by
  obtain ⟨hopened, hopen⟩ := openFile?_eq_some hf
  have hlt : h < w.opened.size := (Array.getElem?_eq_some_iff.1 hopened).1
  have hsame : (w.opened.push g)[h]? = some f := by
    rw [Array.getElem?_push, if_neg (Nat.ne_of_lt hlt)]
    exact hopened
  rw [openFile?_of_some hsame]
  simp [hopen]

/-- A change to an open file is no matter of the others. -/
theorem openFile?_set_ne {f g : OpenFile} {h h' : Handle} (hne : h ≠ h') (hf : w.openFile? h' = some f)
    (files : FileSystem) : World.openFile? { w with files, opened := w.opened.setIfInBounds h g } h' = some f := by
  obtain ⟨hopened, hopen⟩ := openFile?_eq_some hf
  have hsame : (w.opened.setIfInBounds h g)[h']? = some f := (Array.getElem?_setIfInBounds_ne hne).trans hopened
  rw [openFile?_of_some hsame]
  simp [hopen]

theorem Holds.lt_size {h : Handle} {f : OpenFile} (hholds : w.Holds path h f) : h < w.opened.size :=
  (Array.getElem?_eq_some_iff.1 (openFile?_eq_some hholds.1).1).1

/-- An open file gets another position, and its node another content. -/
theorem Holds.nudge_set {h : Handle} {f g : OpenFile} {files : FileSystem} (hholds : w.Holds path h f)
    (hfiles : w.files.Amended (· = path) files) :
    Nudge (· = path) w { w with files, opened := w.opened.setIfInBounds h g } := by
  refine ⟨hfiles, fun h' f' hf' hnot => openFile?_set_ne ?_ hf' files⟩
  rintro rfl
  cases hholds.1.symm.trans hf'
  exact hnot path rfl hholds.2

theorem Holds.seek {h : Handle} {f : OpenFile} (hholds : w.Holds path h f) (position : Nat) :
    (w.seek h f position).Holds path h { f with position } :=
  ⟨openFile?_seek hholds.1 position, hholds.2⟩

/-- Writing to an open file changes things at its path only, whether or not the file takes what is written. -/
theorem Holds.write {h : Handle} {f : OpenFile} (hholds : w.Holds path h f) (data : Bytes) :
    Nudge (· = path) w (w.write (.file h) data).2 ∧ ∃ f', (w.write (.file h) data).2.Holds path h f' := by
  simp only [World.write, hholds.1]
  unfold writeFile
  split
  · exact ⟨nudge_of_same rfl rfl, f, hholds⟩
  split
  · exact ⟨nudge_of_same rfl rfl, f, hholds⟩
  split
  · rename_i content executable hfile
    dsimp only
    generalize splice content _ data = content'
    generalize hposition : (if f.mode = .append then content.length else f.position) + data.length = position
    obtain ⟨hspot, hwrote⟩ := writable_of_file hfile content'
    refine ⟨hholds.nudge_set (.inr ⟨path, _, _, rfl, hholds.2, hspot, hwrote⟩), _, openFile?_seek hholds.1 _, ?_⟩
    have hleads : (w.files.setNode f.node (.file content' executable)).writingSpot path =
      .ok (w.files.moved (.found f.node) (.found f.node)) := hwrote.locate hspot hholds.2
    rwa [moved_self] at hleads
  · exact ⟨nudge_of_same rfl rfl, f, hholds⟩
  · exact ⟨nudge_of_same rfl rfl, f, hholds⟩
  · exact ⟨nudge_of_same rfl rfl, f, hholds⟩
  · exact ⟨nudge_of_same rfl rfl, f, hholds⟩
  · exact ⟨nudge_of_same rfl rfl, f, hholds⟩

theorem Holds.seekEnd {h : Handle} {f : OpenFile} (hholds : w.Holds path h f) :
    Nudge (· = path) w (w.seekEnd h).2 ∧ ∃ f', (w.seekEnd h).2.Holds path h f' := by
  simp only [World.seekEnd, hholds.1]
  split
  · exact ⟨hholds.nudge_set (.inl rfl), _, hholds.seek _⟩
  · exact ⟨nudge_of_same rfl rfl, f, hholds⟩
  · exact ⟨nudge_of_same rfl rfl, f, hholds⟩

end World

namespace FileSystem

variable {fs fs' : FileSystem} {path : String} {mode : Mode} {i : Ino}

/-- A file that is opened to be read stays as it is. -/
theorem openNode_read (hopen : fs.openNode root path .read = .ok (fs', i)) : fs' = fs := by
  unfold openNode at hopen
  repeat' split at hopen
  all_goals first
    | contradiction
    | cases hopen; rfl

/-- Opening a file to write changes files at its path only, and the path leads to it then. -/
theorem openNode_amended (hlinked : fs.Linked) (hmode : mode ≠ .read)
    (hopen : fs.openNode root path mode = .ok (fs', i)) :
    fs.Amended (· = path) fs' ∧ fs'.writingSpot path = .ok (.found i) := by
  have hhow : fs.locate root path { followLast := true, creating := mode ≠ .read } = fs.writingSpot path := by
    simp [writingSpot, hmode]
  unfold openNode at hopen
  rw [hhow] at hopen
  split at hopen
  · cases hopen
  · rename_i d name hleads
    rw [if_neg hmode] at hopen
    cases hopen
    have hthere := there_of_locate hlinked hleads
    have hwrote := wrote_create hthere [] false
    refine ⟨.inr ⟨path, _, _, rfl, hleads, ⟨hthere, rfl⟩, hwrote⟩, ?_⟩
    have hmoved := hwrote.locate ⟨hthere, rfl⟩ hleads
    rwa [moved_self] at hmoved
  · rename_i j hleads
    have hsame : fs.Amended (· = path) fs ∧ fs.writingSpot path = .ok (.found j) := ⟨.inl rfl, hleads⟩
    split at hopen
    · rw [if_neg hmode] at hopen
      cases hopen
    · cases hopen
    · rw [if_neg hmode] at hopen
      cases hopen
    split at hopen
    · cases hopen
      unfold emptied
      split
      · rename_i content executable hfile
        obtain ⟨hspot, hwrote⟩ := writable_of_file hfile []
        refine ⟨.inr ⟨path, _, _, rfl, hleads, hspot, hwrote⟩, ?_⟩
        have hmoved := hwrote.locate hspot hleads
        rwa [moved_self] at hmoved
      · exact hsame
    · cases hopen
      exact hsame

end FileSystem

namespace World

open FileSystem

variable {P : String → Prop} {path : String} {w w' : World} {mode : Mode} {h : Handle}

theorem openPath_read (hopen : w.openPath root path .read = (.ok h, w')) : Nudge P w w' := by
  unfold openPath at hopen
  split at hopen
  · cases hopen
  · rename_i files node hnode
    cases hopen
    exact nudge_of_files (openNode_read hnode) fun h f hf => openFile?_push hf files

/-- Opening a file to write changes things at its path only, and the file is held then. -/
theorem openPath_nudge (hlinked : w.files.Linked) (hmode : mode ≠ .read)
    (hopen : w.openPath root path mode = (.ok h, w')) :
    Nudge (· = path) w w' ∧ ∃ f, w'.Holds path h f := by
  unfold openPath at hopen
  split at hopen
  · cases hopen
  · rename_i files node hnode
    cases hopen
    obtain ⟨hfiles, hleads⟩ := openNode_amended hlinked hmode hnode
    refine ⟨⟨hfiles, fun g f hf _ => openFile?_push hf files⟩, { node, mode }, ?_, hleads⟩
    exact (openFile?_of_some Array.getElem?_push_size).trans rfl

end World

end Conch
