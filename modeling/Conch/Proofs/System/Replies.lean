-- SUMMARY: Calls on worlds that are alike: they are replied to alike, and the worlds stay alike.
import Conch.Proofs.System.Alike

/-!
# Replies in worlds alike

Two calls are tied if, in any two worlds that are alike in all that the second
call touches, they are replied to alike and leave the worlds alike. The calls that
are made for a stage are tied to themselves, up to the numbers that they name.

The world may also change without such a call, as long as no piece that matters
does: `World.Alike.beside` is what others may do.
-/

namespace Conch

/-- The same error twice, or two values that are related. -/
inductive ExceptTied {ε α β : Type} (r : α → β → Prop) : Except ε α → Except ε β → Prop
  | error (e : ε) : ExceptTied r (.error e) (.error e)
  | ok {a : α} {b : β} (h : r a b) : ExceptTied r (.ok a) (.ok b)

/-- Two calls are replied to alike, with ties for what they make. -/
def CallsTied (F : Touch → Prop) (T : Ties) (c c' : Call) (A : Ties → c.Reply → c'.Reply → Prop) : Prop :=
  ∀ {T₁ : Ties}, T.Le T₁ → ∀ {v u : World}, World.Alike F T₁ v u → (∀ t ∈ u.touches c', F t) →
    ∃ T₂, T₁.Le T₂ ∧ World.Alike F T₂ (v.perform c).2 (u.perform c').2 ∧
      A T₂ (v.perform c).1 (u.perform c').1

variable {F : Touch → Prop} {T T' : Ties} {v u u' : World}

/-! ## Open files -/

theorem OpenedAlike.mono {v u : Array OpenFile} (h : OpenedAlike F T v u) (hle : T.Le T') (hfile : T'.file = T.file) :
    OpenedAlike F T' v u := by
  refine ⟨?_, ?_⟩
  · rw [hfile]
    exact h.bound
  · rw [hfile]
    exact fun hh hF => optionRel_mono (fun _ _ => FileTied.mono hle) (h.files hh hF)

theorem OpenedAlike.push {v u : Array OpenFile} (h : OpenedAlike F T v u) {f f' : OpenFile} (hf : FileTied T f f') :
    OpenedAlike F (T.withFile v.size u.size h.fresh) (v.push f) (u.push f') := by
  have hle := T.le_withFile h.fresh
  refine ⟨?_, ?_⟩
  · rintro g g' (hg | ⟨rfl, rfl⟩)
    · rw [Array.size_push, Array.size_push]
      exact ⟨Nat.lt_succ_of_lt (h.bound hg).1, Nat.lt_succ_of_lt (h.bound hg).2⟩
    · rw [Array.size_push, Array.size_push]
      exact ⟨Nat.lt_succ_self _, Nat.lt_succ_self _⟩
  · rintro g g' (hg | ⟨rfl, rfl⟩) hF
    · rw [Array.getElem?_push, if_neg (Nat.ne_of_lt (h.bound hg).1), Array.getElem?_push,
        if_neg (Nat.ne_of_lt (h.bound hg).2)]
      exact optionRel_mono (fun _ _ => FileTied.mono hle) (h.files hg hF)
    · rw [Array.getElem?_push_size, Array.getElem?_push_size]
      exact .some (hf.mono hle)

theorem OpenedAlike.set {v u : Array OpenFile} (h : OpenedAlike F T v u) {g g' : Handle} {f f' : OpenFile}
    (hg : T.file g g') (hf : FileTied T f f') :
    OpenedAlike F T (v.setIfInBounds g f) (u.setIfInBounds g' f') := by
  refine ⟨?_, ?_⟩
  · intro k k' hk
    rw [Array.size_setIfInBounds, Array.size_setIfInBounds]
    exact h.bound hk
  · intro k k' hk hF
    by_cases hgk : g = k
    · cases hgk
      cases (T.file_inj hg hk).1 rfl
      rw [Array.getElem?_setIfInBounds_self_of_lt (h.bound hg).1,
        Array.getElem?_setIfInBounds_self_of_lt (h.bound hg).2]
      exact .some hf
    · have hgk' : g' ≠ k' := fun heq => hgk ((T.file_inj hg hk).2 heq)
      rw [Array.getElem?_setIfInBounds_ne hgk, Array.getElem?_setIfInBounds_ne hgk']
      exact h.files hk hF

namespace World

/-- What others do that leaves every piece of `F` as it is. -/
theorem Alike.beside (h : Alike F T v u) (hlater : u.Later True u') (hsame : ∀ t, F t → u.Same u' t) :
    Alike F T v u' := by
  refine ⟨⟨?_, ?_, ?_⟩, ⟨?_, ?_⟩, ?_, ?_, ?_⟩
  · exact fun hi => ⟨(h.files.bound hi).1, Nat.lt_of_lt_of_le (h.files.bound hi).2 hlater.files.size_le⟩
  · intro i i' hi hF
    exact nodeTied_of_bare (h.files.nodes hi hF) rfl (hsame _ hF).symm
  · intro d d' name hd hF
    rw [← (show u.files.entry? d' name = u'.files.entry? d' name from hsame _ hF)]
    exact h.files.names hd hF
  · intro g g' hg
    have hbound := (h.opened.bound hg).2
    obtain ⟨f, hf, -⟩ := hlater.opened g' u.opened[g'] (Array.getElem?_eq_getElem hbound)
    exact ⟨(h.opened.bound hg).1, (Array.getElem?_eq_some_iff.1 hf).1⟩
  · intro g g' hg hF
    rw [← (show u.opened[g']? = u'.opened[g']? from hsame _ hF)]
    exact h.opened.files hg hF
  · exact fun hF => (h.out hF).trans (hsame _ hF)
  · exact fun hF => (h.err hF).trans (hsame _ hF)
  · exact fun hF => (h.environment hF).trans (hsame _ hF)

end World

/-! ## Looking -/

theorem stat_tied {base base' : Ino} (hbase : T.node base base') (path : String) (followLast : Bool) :
    CallsTied F T (.stat base path followLast) (.stat base' path followLast) (fun _ r r' => r = r') := by
  intro T₁ hle v u h hF
  exact ⟨T₁, .refl T₁, h, FileSystem.stat_eq h.files path (hle.node hbase) hF⟩

theorem fetch_tied {base base' : Ino} (hbase : T.node base base') (path : String) :
    CallsTied F T (.fetch base path) (.fetch base' path) (fun _ r r' => r = r') := by
  intro T₁ hle v u h hF
  exact ⟨T₁, .refl T₁, h, FileSystem.fetch_eq h.files path (hle.node hbase) hF⟩

theorem environment_tied : CallsTied F T .environment .environment (fun _ r r' => r = r') := by
  intro T₁ hle v u h hF
  exact ⟨T₁, .refl T₁, h, h.environment (hF _ List.mem_cons_self)⟩

theorem enter_tied {base base' : Ino} (hbase : T.node base base') (path : String) :
    CallsTied F T (.enter base path) (.enter base' path) (fun T r r' => ExceptTied T.node r r') := by
  intro T₁ hle v u h hF
  refine ⟨T₁, .refl T₁, h, ?_⟩
  have hfind := FileSystem.find_tied h.files path (hle.node hbase) hF
  show ExceptTied T₁.node (v.enter base path) (u.enter base' path)
  unfold World.enter
  generalize v.files.find base path true = found at hfind ⊢
  generalize u.files.find base' path true = found' at hfind ⊢
  cases hfind with
  | error e => exact .error e
  | @ok i i' hi hFi =>
    obtain ⟨n, n', hv, hu, htied⟩ := h.files.node hi hFi
    have hdir : (v.files.entries? i).isSome = (u.files.entries? i').isSome := by
      simp only [FileSystem.entries?, hv, hu]
      cases htied <;> rfl
    dsimp only
    rw [hdir]
    split
    · exact .ok hi
    · exact .error _

/-! ## Opening and closing -/

theorem openFile_tied {base base' : Ino} (hbase : T.node base base') (path : String) (mode : FileSystem.Mode) :
    CallsTied F T (.openFile base path mode) (.openFile base' path mode) (fun T r r' => ExceptTied T.file r r') := by
  intro T₁ hle v u h hF
  have hopen := FileSystem.openNode_tied h.files path mode (hle.node hbase) fun t ht =>
    hF t (List.mem_append_left _ ht)
  show ∃ T₂, T₁.Le T₂ ∧ World.Alike F T₂ (v.openPath base path mode).2 (u.openPath base' path mode).2 ∧
    ExceptTied T₂.file (v.openPath base path mode).1 (u.openPath base' path mode).1
  unfold World.openPath
  generalize v.files.openNode base path mode = opened at hopen ⊢
  generalize u.files.openNode base' path mode = opened' at hopen ⊢
  cases hopen with
  | error e => exact ⟨T₁, .refl T₁, h, .error e⟩
  | @ok T₂ files files' i i' hle₂ hfile halike hi =>
    have hopened := h.opened.mono hle₂ hfile
    have hle₃ := T₂.le_withFile hopened.fresh
    refine ⟨_, hle₂.trans hle₃, ?_, .ok (.inr ⟨rfl, rfl⟩)⟩
    exact ⟨halike.mono hle₃ rfl, hopened.push ⟨hi, rfl, rfl, rfl⟩, h.out, h.err, h.environment⟩

theorem close_tied {h h' : Handle} (hh : T.file h h') :
    CallsTied F T (.close h) (.close h') (fun _ r r' => r = r') := by
  intro T₁ hle v u halike hF
  refine ⟨T₁, .refl T₁, ?_, rfl⟩
  have hh := hle.file hh
  obtain ⟨f, f', hv, hu, htied⟩ := halike.opened.file hh (hF _ List.mem_cons_self)
  show World.Alike F T₁ (v.close h) (u.close h')
  unfold World.close
  rw [hv, hu]
  exact { halike with opened := halike.opened.set hh ⟨htied.node, htied.mode, htied.position, rfl⟩ }

/-! ## Using open files -/

theorem World.openFile?_of_some {w : World} {h : Handle} {f : OpenFile} (hf : w.opened[h]? = some f) :
    w.openFile? h = if f.isOpen then some f else none := by
  simp [World.openFile?, hf]

theorem files_alike (halike : World.Alike F T v u) {files files' : FileSystem} (hfiles : FilesAlike F T files files') :
    World.Alike F T { v with files } { u with files := files' } :=
  ⟨hfiles, halike.opened, halike.out, halike.err, halike.environment⟩

theorem seek_alike (halike : World.Alike F T v u) {h h' : Handle} {f f' : OpenFile} (hh : T.file h h')
    (htied : FileTied T f f') (position : Nat) : World.Alike F T (v.seek h f position) (u.seek h' f' position) :=
  { halike with opened := halike.opened.set hh ⟨htied.node, htied.mode, rfl, htied.isOpen⟩ }

theorem touchesOpen_mem {h : Handle} {f : OpenFile} (hf : u.opened[h]? = some f)
    (hF : ∀ t ∈ u.touchesOpen h, F t) : F (.file h) ∧ F (.node f.node) := by
  refine ⟨hF _ List.mem_cons_self, hF _ ?_⟩
  simp [World.touchesOpen, hf]

theorem seekEnd_tied {h h' : Handle} (hh : T.file h h') :
    CallsTied F T (.seekEnd h) (.seekEnd h') (fun _ r r' => r = r') := by
  intro T₁ hle v u halike hF
  have hh := hle.file hh
  obtain ⟨f, f', hv, hu, htied⟩ := halike.opened.file hh (hF _ List.mem_cons_self)
  obtain ⟨n, n', hnv, hnu, hntied⟩ := halike.files.node htied.node (touchesOpen_mem hu hF).2
  refine ⟨T₁, .refl T₁, ?_⟩
  show World.Alike F T₁ (v.seekEnd h).2 (u.seekEnd h').2 ∧ (v.seekEnd h).1 = (u.seekEnd h').1
  unfold World.seekEnd
  rw [World.openFile?_of_some hv, World.openFile?_of_some hu, htied.isOpen]
  cases f.isOpen with
  | false => exact ⟨halike, rfl⟩
  | true =>
    simp only [↓reduceIte, hnv, hnu]
    cases hntied with
    | file content executable => exact ⟨seek_alike halike hh htied _, rfl⟩
    | device d => cases d <;> exact ⟨halike, rfl⟩
    | _ => exact ⟨halike, rfl⟩

theorem write_out_tied (data : Bytes) :
    CallsTied F T (.write .out data) (.write .out data) (fun _ r r' => r = r') := by
  intro T₁ hle v u halike hF
  refine ⟨T₁, .refl T₁, { halike with out := fun hout => ?_ }, rfl⟩
  show v.out ++ data = u.out ++ data
  rw [halike.out hout]

theorem write_err_tied (data : Bytes) :
    CallsTied F T (.write .err data) (.write .err data) (fun _ r r' => r = r') := by
  intro T₁ hle v u halike hF
  refine ⟨T₁, .refl T₁, { halike with err := fun herr => ?_ }, rfl⟩
  show v.err ++ data = u.err ++ data
  rw [halike.err herr]

/-- Writing to two tied files of the same content, or to the same device. -/
theorem writeFile_tied (halike : World.Alike F T v u) {h h' : Handle} {f f' : OpenFile} (hh : T.file h h')
    (htied : FileTied T f f') (hF : F (.node f'.node)) (data : Bytes) :
    World.Alike F T (v.writeFile h f data).2 (u.writeFile h' f' data).2 ∧
      (v.writeFile h f data).1 = (u.writeFile h' f' data).1 := by
  obtain ⟨n, n', hnv, hnu, hntied⟩ := halike.files.node htied.node hF
  unfold World.writeFile
  rw [htied.mode, htied.position]
  split
  · exact ⟨halike, rfl⟩
  split
  · exact ⟨halike, rfl⟩
  rw [hnv, hnu]
  cases hntied with
  | file content executable =>
    refine ⟨?_, rfl⟩
    have hfiles := FileSystem.setNode_alike halike.files htied.node
      (.file (World.splice content (if f.mode = .append then content.length else f.position) data) executable)
      FileKind.noConfusion
    exact seek_alike (files_alike halike hfiles) hh htied _
  | device d =>
    cases d with
    | consoleOut =>
      refine ⟨{ halike with out := fun hout => ?_ }, rfl⟩
      show v.out ++ data = u.out ++ data
      rw [halike.out hout]
    | consoleErr =>
      refine ⟨{ halike with err := fun herr => ?_ }, rfl⟩
      show v.err ++ data = u.err ++ data
      rw [halike.err herr]
    | _ => exact ⟨halike, rfl⟩
  | _ => exact ⟨halike, rfl⟩

theorem write_file_tied {h h' : Handle} (hh : T.file h h') (data : Bytes) :
    CallsTied F T (.write (.file h) data) (.write (.file h') data) (fun _ r r' => r = r') := by
  intro T₁ hle v u halike hF
  have hh := hle.file hh
  obtain ⟨f, f', hv, hu, htied⟩ := halike.opened.file hh (hF _ List.mem_cons_self)
  refine ⟨T₁, .refl T₁, ?_⟩
  show World.Alike F T₁ (v.write (.file h) data).2 (u.write (.file h') data).2 ∧
    (v.write (.file h) data).1 = (u.write (.file h') data).1
  unfold World.write
  dsimp only
  rw [World.openFile?_of_some hv, World.openFile?_of_some hu, htied.isOpen]
  cases f.isOpen with
  | false => exact ⟨halike, rfl⟩
  | true => exact writeFile_tied halike hh htied (touchesOpen_mem hu hF).2 data

end Conch
