-- SUMMARY: What calls on the world keep, whoever makes them: devices stay, and open files stay what they were opened as.
import Conch.System.World

/-!
# Later worlds

Between two calls of a process the world may change, because others are at work
in it. Some things never change: a device stays a device, and an open file keeps
its node and what it was opened for. An open file may be closed only where files
are `shared` with others.

`World.Later` says this of two moments of a world, and `perform_later` shows that
no call can do more.
-/

namespace Conch

/-! ## File systems -/

namespace FileSystem

/-- A file system at a later moment: it has the same devices, and no fewer nodes. -/
structure Later (fs fs' : FileSystem) : Prop where
  device_iff : ∀ i d, fs'.node? i = some (.device d) ↔ fs.node? i = some (.device d)
  size_le : fs.nodes.size ≤ fs'.nodes.size

variable {fs fs' fs'' : FileSystem}

theorem Later.refl (fs : FileSystem) : fs.Later fs := ⟨fun _ _ => Iff.rfl, Nat.le_refl _⟩

theorem Later.trans (h : fs.Later fs') (h' : fs'.Later fs'') : fs.Later fs'' :=
  ⟨fun i d => (h'.device_iff i d).trans (h.device_iff i d), Nat.le_trans h.size_le h'.size_le⟩

theorem node?_setNode_self {i : Ino} {n n' : Node} (h : fs.node? i = some n') :
    (fs.setNode i n).node? i = some n := by
  have hi : i < fs.nodes.size := (Array.getElem?_eq_some_iff.1 h).1
  exact Array.getElem?_setIfInBounds_self_of_lt hi

theorem node?_setNode_ne {i j : Ino} {n : Node} (h : i ≠ j) : (fs.setNode i n).node? j = fs.node? j :=
  Array.getElem?_setIfInBounds_ne h

theorem node?_addNode_of_lt {i : Ino} {n : Node} (h : i < fs.nodes.size) :
    (fs.addNode n).1.node? i = fs.node? i := by
  show (fs.nodes.push n)[i]? = fs.nodes[i]?
  rw [Array.getElem?_push, if_neg (Nat.ne_of_lt h)]

theorem lt_size_of_node? {i : Ino} {n : Node} (h : fs.node? i = some n) : i < fs.nodes.size :=
  (Array.getElem?_eq_some_iff.1 h).1

theorem setNode_later {i : Ino} {old new : Node} (hold : fs.node? i = some old)
    (hnew : ∀ d, new ≠ .device d) (hnot : ∀ d, old ≠ .device d) : fs.Later (fs.setNode i new) := by
  refine ⟨fun j d => ?_, Nat.le_of_eq Array.size_setIfInBounds.symm⟩
  by_cases h : i = j
  · subst h
    rw [node?_setNode_self hold, hold, Option.some.injEq, Option.some.injEq]
    exact iff_of_false (hnew d) (hnot d)
  · rw [node?_setNode_ne h]

theorem addNode_later {n : Node} (hn : ∀ d, n ≠ .device d) : fs.Later (fs.addNode n).1 := by
  refine ⟨fun j d => ?_, Nat.le_trans (Nat.le_succ _) (Nat.le_of_eq (Array.size_push n).symm)⟩
  show (fs.nodes.push n)[j]? = _ ↔ fs.nodes[j]? = _
  rw [Array.getElem?_push]
  split
  · rename_i hj
    subst hj
    rw [Option.some.injEq, Array.getElem?_eq_none (Nat.le_refl _)]
    exact iff_of_false (hn d) (by simp)
  · exact Iff.rfl

theorem setEntry_later (dir : Ino) (name : String) (target : Option Ino) :
    fs.Later (fs.setEntry dir name target) := by
  unfold setEntry
  split
  · rename_i parent entries hdir
    exact setNode_later hdir (fun _ => Node.noConfusion) (fun _ => Node.noConfusion)
  · exact .refl fs

theorem create_later (dir : Ino) (name : String) {n : Node} (hn : ∀ d, n ≠ .device d) :
    fs.Later (fs.create dir name n).1 :=
  (addNode_later hn).trans (setEntry_later dir name (some fs.nodes.size))

theorem emptied_later (i : Ino) : fs.Later (fs.emptied i) := by
  unfold emptied
  split
  · rename_i content executable hfile
    exact setNode_later hfile (fun _ => Node.noConfusion) (fun _ => Node.noConfusion)
  · exact .refl fs

theorem openNode_later {base : Ino} {path : String} {mode : Mode} {i : Ino}
    (h : fs.openNode base path mode = .ok (fs', i)) : fs.Later fs' := by
  unfold openNode at h
  split at h
  · cases h
  · split at h
    · cases h
    · cases h
      exact create_later _ _ fun _ => Node.noConfusion
  · split at h
    · split at h <;> cases h
      exact .refl fs
    · cases h
    · split at h <;> cases h
      exact .refl fs
    · split at h <;> cases h
      · exact emptied_later _
      · exact .refl fs

/-- Giving a directory another parent. -/
theorem setParent_later {i parent toDir : Ino} {entries : List (String × Ino)}
    (h : fs.node? i = some (.dir parent entries)) : fs.Later (fs.setNode i (.dir toDir entries)) :=
  setNode_later h (fun _ => Node.noConfusion) (fun _ => Node.noConfusion)

theorem rename_later {base : Ino} {source path : String} {keep : Bool}
    (h : fs.rename base source path keep = .ok fs') : fs.Later fs' := by
  have hmoved (fromDir toDir i : Ino) (fromName toName : String) :
      fs.Later ((fs.setEntry fromDir fromName none).setEntry toDir toName (some i)) :=
    (setEntry_later fromDir fromName none).trans (setEntry_later toDir toName (some i))
  unfold rename at h
  simp only [bind, Except.bind, pure, Except.pure, throw, throwThe, MonadExceptOf.throw] at h
  repeat' split at h
  all_goals cases h
  -- What is left are the two ways to keep the system as it is or to move the node, which may be a directory.
  · exact .refl fs
  · exact (hmoved _ _ _ _ _).trans (setParent_later ‹_›)
  · exact hmoved _ _ _ _ _
  · exact (hmoved _ _ _ _ _).trans (setParent_later ‹_›)
  · exact hmoved _ _ _ _ _

/-- No change that a program can ask for touches a device. -/
theorem apply_later {base : Ino} {what : Change} (h : fs.apply base what = .ok fs') :
    fs.Later fs' := by
  cases what with
  | makeDir path =>
    simp only [apply, makeDir, bind, Except.bind, pure, Except.pure] at h
    split at h <;> cases h
    exact create_later _ _ fun _ => Node.noConfusion
  | removeDir path =>
    simp only [apply, removeDir, bind, Except.bind, pure, Except.pure, throw, throwThe, MonadExceptOf.throw] at h
    repeat' split at h
    all_goals cases h
    exact setEntry_later ..
  | unlink path =>
    simp only [apply, unlink, bind, Except.bind, pure, Except.pure, throw, throwThe, MonadExceptOf.throw] at h
    repeat' split at h
    all_goals cases h
    exact setEntry_later ..
  | symlink target path =>
    simp only [apply, symlink, bind, Except.bind, pure, Except.pure, throw, throwThe, MonadExceptOf.throw] at h
    repeat' split at h
    all_goals cases h
    exact create_later _ _ fun _ => Node.noConfusion
  | hardLink existing path follow =>
    simp only [apply, hardLink, bind, Except.bind, pure, Except.pure, throw, throwThe, MonadExceptOf.throw] at h
    repeat' split at h
    all_goals cases h
    exact setEntry_later ..
  | rename source path keep => exact rename_later h

end FileSystem

/-! ## Worlds -/

/-- An open file at a later moment. Only where files are shared may it be closed by then. -/
structure OpenFile.Later (shared : Prop) (f f' : OpenFile) : Prop where
  node : f'.node = f.node
  mode : f'.mode = f.mode
  isOpen : f.isOpen = true → shared ∨ f'.isOpen = true

/-- A world at a later moment, whoever has been at work in it. -/
structure World.Later (shared : Prop) (w w' : World) : Prop where
  files : w.files.Later w'.files
  opened : ∀ (h : Handle) (f : OpenFile), w.opened[h]? = some f → ∃ f', w'.opened[h]? = some f' ∧ f.Later shared f'

variable {shared : Prop}

theorem OpenFile.Later.refl (f : OpenFile) : f.Later shared f := ⟨rfl, rfl, .inr⟩

theorem OpenFile.Later.trans {f f' f'' : OpenFile} (h : f.Later shared f') (h' : f'.Later shared f'') :
    f.Later shared f'' where
  node := h'.node.trans h.node
  mode := h'.mode.trans h.mode
  isOpen hopen := (h.isOpen hopen).elim .inl h'.isOpen

namespace World

variable {w w' w'' : World}

theorem Later.refl (w : World) : w.Later shared w := ⟨.refl _, fun _ f hf => ⟨f, hf, .refl f⟩⟩

theorem Later.trans (h : w.Later shared w') (h' : w'.Later shared w'') : w.Later shared w'' where
  files := h.files.trans h'.files
  opened := by
    intro handle f hf
    obtain ⟨f', hf', hlater⟩ := h.opened handle f hf
    obtain ⟨f'', hf'', hlater'⟩ := h'.opened handle f' hf'
    exact ⟨f'', hf'', hlater.trans hlater'⟩

/-- Sharing files only allows more. -/
theorem Later.share (h : w.Later shared w') : w.Later True w' where
  files := h.files
  opened := by
    intro handle f hf
    obtain ⟨f', hf', hlater⟩ := h.opened handle f hf
    exact ⟨f', hf', hlater.node, hlater.mode, fun _ => .inl trivial⟩

/-- What only touches the console and the pipes is no change to files. -/
theorem later_of_eq (hfiles : w'.files = w.files) (hopened : w'.opened = w.opened) : w.Later shared w' := by
  refine ⟨?_, ?_⟩
  · rw [hfiles]
    exact .refl _
  · rw [hopened]
    exact (Later.refl w).opened

theorem later_of_files {files : FileSystem} (h : w.files.Later files) :
    w.Later shared { w with files } :=
  ⟨h, (Later.refl w).opened⟩

theorem later_set {h : Handle} {f f' : OpenFile} (hf : w.opened[h]? = some f) (hlater : f.Later shared f') :
    w.Later shared { w with opened := w.opened.setIfInBounds h f' } := by
  refine ⟨.refl _, ?_⟩
  intro g k hk
  by_cases heq : h = g
  · subst heq
    rw [hf] at hk
    cases hk
    exact ⟨f', Array.getElem?_setIfInBounds_self_of_lt (Array.getElem?_eq_some_iff.1 hf).1, hlater⟩
  · exact ⟨k, (Array.getElem?_setIfInBounds_ne heq).trans hk, .refl k⟩

theorem later_push (f : OpenFile) : w.Later shared { w with opened := w.opened.push f } := by
  refine ⟨.refl _, ?_⟩
  intro g k hk
  have hbound : g < w.opened.size := (Array.getElem?_eq_some_iff.1 hk).1
  refine ⟨k, ?_, .refl k⟩
  show (w.opened.push f)[g]? = some k
  rw [Array.getElem?_push, if_neg (Nat.ne_of_lt hbound)]
  exact hk

theorem openFile?_eq_some {h : Handle} {f : OpenFile} (hf : w.openFile? h = some f) :
    w.opened[h]? = some f ∧ f.isOpen = true := by
  unfold openFile? at hf
  split at hf
  · split at hf
    · cases hf
      exact ⟨‹_›, ‹_›⟩
    · cases hf
  · cases hf

theorem seek_later {h : Handle} {f : OpenFile} (hf : w.openFile? h = some f) (position : Nat) :
    w.Later shared (w.seek h f position) :=
  later_set (openFile?_eq_some hf).1 ⟨rfl, rfl, .inr⟩

theorem readFile_later {h : Handle} {f : OpenFile} (hf : w.openFile? h = some f) (limit : Nat) :
    w.Later shared (w.readFile h f limit).2 := by
  unfold readFile
  repeat' split
  all_goals first
    | exact seek_later hf _
    | exact .refl w

theorem writeFile_later {h : Handle} {f : OpenFile} (hf : w.openFile? h = some f) (data : Bytes) :
    w.Later shared (w.writeFile h f data).2 := by
  unfold writeFile
  split
  · exact .refl w
  split
  · exact .refl w
  split
  · rename_i content executable hnode
    refine (later_of_files ?_).trans (later_set (openFile?_eq_some hf).1 ⟨rfl, rfl, .inr⟩)
    exact FileSystem.setNode_later hnode (fun _ => Node.noConfusion) (fun _ => Node.noConfusion)
  all_goals exact later_of_eq rfl rfl

theorem read_later (source : Source) (limit : Nat) : w.Later shared (w.read source limit).2 := by
  unfold read
  split
  · split
    · exact readFile_later ‹_› limit
    · exact .refl w
  all_goals exact later_of_eq rfl rfl

theorem write_later (sink : Sink) (data : Bytes) : w.Later shared (w.write sink data).2 := by
  unfold write
  split
  · split
    · exact writeFile_later ‹_› data
    · exact .refl w
  all_goals exact later_of_eq rfl rfl

theorem openPath_later (base : Ino) (path : String) (mode : FileSystem.Mode) :
    w.Later shared (w.openPath base path mode).2 := by
  unfold openPath
  split
  · exact .refl w
  · rename_i files node hopen
    exact (later_of_files (FileSystem.openNode_later hopen)).trans (later_push _)

theorem reopen_later (h : Handle) (mode : FileSystem.Mode) : w.Later shared (w.reopen h mode).2 := by
  unfold reopen
  split
  · exact .refl w
  · rename_i f hf
    have hfiles : w.files.Later (if mode = .truncate then w.files.emptied f.node else w.files) := by
      split
      · exact FileSystem.emptied_later _
      · exact .refl _
    exact (later_of_files hfiles).trans (later_push _)

theorem seekEnd_later (h : Handle) : w.Later shared (w.seekEnd h).2 := by
  unfold seekEnd
  split
  · exact .refl w
  · split
    · exact seek_later ‹_› _
    all_goals exact .refl w

theorem goBack_later (h : Handle) (count : Nat) : w.Later shared (w.goBack h count).2 := by
  unfold goBack
  split
  · exact .refl w
  · split
    · exact seek_later ‹_› _
    · exact .refl w

/-- Closing a file that was opened after some moment takes away nothing that was open then. -/
theorem close_later {h : Handle} (hlater : w.Later shared w') (hnew : shared ∨ w.opened.size ≤ h) :
    w.Later shared (w'.close h) := by
  refine ⟨?_, ?_⟩
  · unfold close
    split
    · exact hlater.files
    · exact hlater.files
  · intro g k hk
    obtain ⟨k', hk', hstays⟩ := hlater.opened g k hk
    have hbound : g < w.opened.size := (Array.getElem?_eq_some_iff.1 hk).1
    unfold close
    split
    · rename_i f hf
      by_cases heq : h = g
      · subst heq
        rw [hf] at hk'
        cases hk'
        have hshared : shared := hnew.resolve_right (Nat.not_le.2 hbound)
        exact ⟨_, Array.getElem?_setIfInBounds_self_of_lt (Array.getElem?_eq_some_iff.1 hf).1,
          hstays.node, hstays.mode, fun _ => .inl hshared⟩
      · exact ⟨k', (Array.getElem?_setIfInBounds_ne heq).trans hk', hstays⟩
    · exact ⟨k', hk', hstays⟩

/-- No call does more to a world than time does, except closing a file that is not shared. -/
theorem perform_later (c : Call) (hclose : ∀ h, c = .close h → shared) : w.Later shared (w.perform c).2 := by
  cases c with
  | read source limit => exact read_later source limit
  | write sink data => exact write_later sink data
  | close h => exact close_later (.refl w) (.inl (hclose h rfl))
  | openFile base path mode => exact openPath_later base path mode
  | reopen h mode => exact reopen_later h mode
  | seekEnd h => exact seekEnd_later h
  | goBack h count => exact goBack_later h count
  | joint => exact later_of_eq rfl rfl
  | change base what =>
    simp only [perform]
    split
    · exact later_of_files (FileSystem.apply_later ‹_›)
    · exact .refl w
  | _ => exact .refl w

/-! ## Numbers of open files -/

/-- The number of an open file stays in use. -/
theorem Later.lt_size {h : Handle} (hlater : w.Later shared w') (hbound : h < w.opened.size) :
    h < w'.opened.size := by
  obtain ⟨f', hf', -⟩ := hlater.opened h _ (Array.getElem?_eq_getElem hbound)
  exact (Array.getElem?_eq_some_iff.1 hf').1

variable {base : Ino} {path : String} {mode : FileSystem.Mode} {h : Handle}

theorem size_of_openPath (hopen : (w.openPath base path mode).1 = .ok h) : h = w.opened.size := by
  unfold openPath at hopen
  split at hopen
  · cases hopen
  · cases hopen
    rfl

theorem lt_size_of_openPath (hopen : (w.openPath base path mode).1 = .ok h) :
    h < (w.openPath base path mode).2.opened.size := by
  unfold openPath at hopen ⊢
  split at hopen
  · cases hopen
  · cases hopen
    simp

end World

end Conch
