-- SUMMARY: Two worlds that are alike in some of their pieces, up to the numbers of nodes and open files.
import Conch.Proofs.System.Footprint
import Conch.Proofs.System.Later

/-!
# Worlds alike

Two worlds in which the same things are done may number their nodes and open files
differently, because other things are done in one of them as well. `Ties` says
which numbers of one world stand for which of the other, and `World.Alike` that the
two worlds agree, up to these numbers, in all pieces of a set `F`. The pieces are
named by the numbers of the second world.

What is shown about each call has one shape: if everything that the call touches
is in `F`, then its replies are tied and the worlds are alike again, with ties for
what was made in the meantime.
-/

namespace Conch

/-! ## Ties -/

/-- Which nodes and open files of one world stand for which of another. Each stands for at most one. -/
structure Ties where
  node : Ino → Ino → Prop
  file : Handle → Handle → Prop
  root : node FileSystem.root FileSystem.root
  node_inj : ∀ {i i' j j'}, node i i' → node j j' → (i = j ↔ i' = j')
  file_inj : ∀ {h h' g g'}, file h h' → file g g' → (h = g ↔ h' = g')

namespace Ties

/-- Ties are only ever added. -/
structure Le (T T' : Ties) : Prop where
  node : ∀ {i i'}, T.node i i' → T'.node i i'
  file : ∀ {h h'}, T.file h h' → T'.file h h'

variable {T T' T'' : Ties}

theorem Le.refl (T : Ties) : T.Le T := ⟨id, id⟩

theorem Le.trans (h : T.Le T') (h' : T'.Le T'') : T.Le T'' :=
  ⟨fun hi => h'.node (h.node hi), fun hh => h'.file (h.file hh)⟩

/-- One more pair keeps a relation one to one if both sides of it are new. -/
theorem inj_or {r : Nat → Nat → Prop} (hr : ∀ {i i' j j'}, r i i' → r j j' → (i = j ↔ i' = j')) {k k' : Nat}
    (hnew : ∀ {i i'}, r i i' → i ≠ k ∧ i' ≠ k') {i i' j j' : Nat} (hi : r i i' ∨ i = k ∧ i' = k')
    (hj : r j j' ∨ j = k ∧ j' = k') : i = j ↔ i' = j' := by
  rcases hi with hi | ⟨rfl, rfl⟩
  · rcases hj with hj | ⟨rfl, rfl⟩
    · exact hr hi hj
    · exact iff_of_false (hnew hi).1 (hnew hi).2
  · rcases hj with hj | ⟨rfl, rfl⟩
    · exact iff_of_false (Ne.symm (hnew hj).1) (Ne.symm (hnew hj).2)
    · exact iff_of_true rfl rfl

/-- With a tie between two new nodes. -/
def withNode (T : Ties) (k k' : Ino) (hnew : ∀ {i i'}, T.node i i' → i ≠ k ∧ i' ≠ k') : Ties :=
  { T with
    node := fun i i' => T.node i i' ∨ i = k ∧ i' = k'
    root := .inl T.root
    node_inj := inj_or T.node_inj hnew }

/-- With a tie between two new open files. -/
def withFile (T : Ties) (k k' : Handle) (hnew : ∀ {h h'}, T.file h h' → h ≠ k ∧ h' ≠ k') : Ties :=
  { T with
    file := fun h h' => T.file h h' ∨ h = k ∧ h' = k'
    file_inj := inj_or T.file_inj hnew }

theorem le_withNode (T : Ties) {k k' : Ino} (hnew : ∀ {i i'}, T.node i i' → i ≠ k ∧ i' ≠ k') :
    T.Le (T.withNode k k' hnew) := ⟨.inl, id⟩

theorem le_withFile (T : Ties) {k k' : Handle} (hnew : ∀ {h h'}, T.file h h' → h ≠ k ∧ h' ≠ k') :
    T.Le (T.withFile k k' hnew) := ⟨id, .inl⟩

end Ties

/-- Two nodes that are the same but for the numbers of directories and the names in them. -/
inductive NodeTied (T : Ties) : Node → Node → Prop
  | file (content : Bytes) (executable : Bool) : NodeTied T (.file content executable) (.file content executable)
  | dir {parent parent' : Ino} (h : T.node parent parent') (entries entries' : List (String × Ino)) :
    NodeTied T (.dir parent entries) (.dir parent' entries')
  | link (target : String) : NodeTied T (.link target) (.link target)
  | device (d : Device) : NodeTied T (.device d) (.device d)
  | program (name : String) : NodeTied T (.program name) (.program name)

/-- Two open files that are the same but for the numbers of their nodes. -/
structure FileTied (T : Ties) (f f' : OpenFile) : Prop where
  node : T.node f.node f'.node
  mode : f'.mode = f.mode
  position : f'.position = f.position
  isOpen : f'.isOpen = f.isOpen

/-- Two file systems that agree in the pieces of `F`. -/
structure FilesAlike (F : Touch → Prop) (T : Ties) (v u : FileSystem) : Prop where
  bound : ∀ {i i'}, T.node i i' → i < v.nodes.size ∧ i' < u.nodes.size
  nodes : ∀ {i i'}, T.node i i' → F (.node i') → Option.Rel (NodeTied T) (v.node? i) (u.node? i')
  names : ∀ {d d'} {name : String}, T.node d d' → F (.name d' name) →
    Option.Rel T.node (v.entry? d name) (u.entry? d' name)

/-- Open files that agree in the pieces of `F`. -/
structure OpenedAlike (F : Touch → Prop) (T : Ties) (v u : Array OpenFile) : Prop where
  bound : ∀ {h h'}, T.file h h' → h < v.size ∧ h' < u.size
  files : ∀ {h h'}, T.file h h' → F (.file h') → Option.Rel (FileTied T) v[h]? u[h']?

/-- Two worlds that agree in the pieces of `F`, up to the numbers that are tied. -/
structure World.Alike (F : Touch → Prop) (T : Ties) (v u : World) : Prop where
  files : FilesAlike F T v.files u.files
  opened : OpenedAlike F T v.opened u.opened
  out : F .out → v.out = u.out
  err : F .err → v.err = u.err
  environment : F .environment → v.environment = u.environment

section Ties

theorem optionRel_mono {α β : Type} {r r' : α → β → Prop} (hr : ∀ a b, r a b → r' a b) {o : Option α} {o' : Option β}
    (h : Option.Rel r o o') : Option.Rel r' o o' := by
  cases h with
  | none => exact .none
  | some h => exact .some (hr _ _ h)

variable {F : Touch → Prop} {T T' : Ties}

theorem NodeTied.mono {n n' : Node} (hle : T.Le T') (h : NodeTied T n n') : NodeTied T' n n' := by
  cases h with
  | file content executable => exact .file content executable
  | dir h entries entries' => exact .dir (hle.node h) entries entries'
  | link target => exact .link target
  | device d => exact .device d
  | program name => exact .program name

theorem FileTied.mono {f f' : OpenFile} (hle : T.Le T') (h : FileTied T f f') : FileTied T' f f' :=
  ⟨hle.node h.node, h.mode, h.position, h.isOpen⟩

theorem NodeTied.kind {n n' : Node} (h : NodeTied T n n') : n.kind = n'.kind := by
  cases h <;> rfl

/-- The names in directories do not matter. -/
theorem NodeTied.of_bare {n n' m m' : Node} (h : NodeTied T n n') (hm : m.bare = n.bare) (hm' : m'.bare = n'.bare) :
    NodeTied T m m' := by
  cases h with
  | dir hparent entries entries' =>
    cases m <;> cases hm
    cases m' <;> cases hm'
    exact .dir hparent _ _
  | file content executable =>
    cases m <;> cases hm
    cases m' <;> cases hm'
    exact .file _ _
  | link target =>
    cases m <;> cases hm
    cases m' <;> cases hm'
    exact .link _
  | device d =>
    cases m <;> cases hm
    cases m' <;> cases hm'
    exact .device _
  | program name =>
    cases m <;> cases hm
    cases m' <;> cases hm'
    exact .program _

theorem nodeTied_of_bare {o o' p p' : Option Node} (h : Option.Rel (NodeTied T) o o')
    (hp : p.map Node.bare = o.map Node.bare) (hp' : p'.map Node.bare = o'.map Node.bare) :
    Option.Rel (NodeTied T) p p' := by
  cases h with
  | none =>
    rw [Option.map_none, Option.map_eq_none_iff] at hp hp'
    rw [hp, hp']
    exact .none
  | some h =>
    obtain ⟨m, rfl, hm⟩ := Option.map_eq_some_iff.1 hp
    obtain ⟨m', rfl, hm'⟩ := Option.map_eq_some_iff.1 hp'
    exact .some (h.of_bare hm hm')

/-- Ties between open files are no matter of file systems. -/
theorem FilesAlike.mono {v u : FileSystem} (h : FilesAlike F T v u) (hle : T.Le T') (hnode : T'.node = T.node) :
    FilesAlike F T' v u := by
  refine ⟨?_, ?_, ?_⟩
  · rw [hnode]
    exact h.bound
  · rw [hnode]
    exact fun hi hF => optionRel_mono (fun _ _ => NodeTied.mono hle) (h.nodes hi hF)
  · rw [hnode]
    exact h.names

/-- The numbers of the next nodes are not tied yet. -/
theorem FilesAlike.fresh {v u : FileSystem} (h : FilesAlike F T v u) {i i' : Ino} (hi : T.node i i') :
    i ≠ v.nodes.size ∧ i' ≠ u.nodes.size :=
  ⟨Nat.ne_of_lt (h.bound hi).1, Nat.ne_of_lt (h.bound hi).2⟩

/-- The numbers of the next open files are not tied yet. -/
theorem OpenedAlike.fresh {v u : Array OpenFile} (ho : OpenedAlike F T v u) {h h' : Handle} (hh : T.file h h') :
    h ≠ v.size ∧ h' ≠ u.size :=
  ⟨Nat.ne_of_lt (ho.bound hh).1, Nat.ne_of_lt (ho.bound hh).2⟩

/-- A tied node is there in both. -/
theorem FilesAlike.node {v u : FileSystem} (h : FilesAlike F T v u) {i i' : Ino} (hi : T.node i i')
    (hF : F (.node i')) : ∃ n n', v.node? i = some n ∧ u.node? i' = some n' ∧ NodeTied T n n' := by
  have hbound := (h.bound hi).1
  have hn : v.node? i = some v.nodes[i] := Array.getElem?_eq_getElem hbound
  have hrel := h.nodes hi hF
  rw [hn] at hrel
  generalize hu : u.node? i' = o at hrel
  obtain ⟨htied⟩ := hrel
  exact ⟨_, _, hn, rfl, htied⟩

/-- A tied open file is there in both. -/
theorem OpenedAlike.file {v u : Array OpenFile} (ho : OpenedAlike F T v u) {h h' : Handle} (hh : T.file h h')
    (hF : F (.file h')) : ∃ f f', v[h]? = some f ∧ u[h']? = some f' ∧ FileTied T f f' := by
  have hbound := (ho.bound hh).1
  have hf : v[h]? = some v[h] := Array.getElem?_eq_getElem hbound
  have hrel := ho.files hh hF
  rw [hf] at hrel
  generalize hu : u[h']? = o at hrel
  obtain ⟨htied⟩ := hrel
  exact ⟨_, _, hf, rfl, htied⟩

end Ties

/-! ## Walks -/

namespace FileSystem

variable {F : Touch → Prop} {T : Ties} {v u : FileSystem}

/-- Where two walks end alike. -/
inductive SpotTied (F : Touch → Prop) (T : Ties) (v u : FileSystem) :
    Except Errno Spot → Except Errno Spot → Prop
  | error (e : Errno) : SpotTied F T v u (.error e) (.error e)
  | found {i i' : Ino} (h : T.node i i') (hF : F (.node i')) :
    SpotTied F T v u (.ok (.found i)) (.ok (.found i'))
  | missing {d d' : Ino} {name : String} (h : T.node d d') (hF : F (.node d')) (hname : F (.name d' name))
      (hdir : (v.entries? d).isSome = true) (hdir' : (u.entries? d').isSome = true) :
    SpotTied F T v u (.ok (.missing d name)) (.ok (.missing d' name))

theorem dir_of_entries? {fs : FileSystem} {i : Ino} (h : (fs.entries? i).isSome = true) :
    ∃ parent entries, fs.node? i = some (.dir parent entries) := by
  unfold entries? at h
  split at h
  · exact ⟨_, _, ‹_›⟩
  · cases h

theorem entry?_of_dir {fs : FileSystem} {i parent : Ino} {entries : List (String × Ino)} (name : String)
    (h : fs.node? i = some (.dir parent entries)) : fs.entry? i name = entries.lookup name := by
  simp [ entry?, entries?, h]

theorem startOf_tied {here here' : Ino} (h : T.node here here') (path : String) :
    T.node (startOf here path) (startOf here' path) := by
  unfold startOf
  split
  · exact T.root
  · exact h

theorem walkWith_tied (h : FilesAlike F T v u) {how : Walk} {follow follow' : Ino → List String → Except Errno Spot}
    {trail : Ino → List String → List Touch}
    (hfollow : ∀ here here' names, T.node here here' → (∀ t ∈ trail here' names, F t) →
      SpotTied F T v u (follow here names) (follow' here' names))
    (names : List String) {here here' : Ino} (hhere : T.node here here')
    (hF : ∀ t ∈ u.trailWith trail how here' names, F t) :
    SpotTied F T v u (v.walkWith follow how here names) (u.walkWith follow' how here' names) := by
  induction names generalizing here here' with
  | nil => exact .found hhere (hF _ (List.mem_singleton.2 rfl))
  | cons name rest ih =>
    have hnode := hF _ List.mem_cons_self
    obtain ⟨n, n', hv, hu, htied⟩ := h.node hhere hnode
    unfold walkWith
    unfold trailWith at hF
    rw [hu] at hF
    rw [hv, hu]
    cases htied with
    | dir hparent entries entries' =>
      have hF := fun t ht => hF t (List.mem_cons_of_mem _ ht)
      dsimp only at hF ⊢
      split at hF
      · rename_i hdot
        rw [if_pos hdot, if_pos hdot]
        exact ih hhere hF
      rename_i hdot
      rw [if_neg hdot, if_neg hdot]
      split at hF
      · rename_i hup
        rw [if_pos hup, if_pos hup]
        exact ih hparent hF
      rename_i hup
      rw [if_neg hup, if_neg hup]
      split at hF
      · rename_i hslash
        rw [if_pos hslash, if_pos hslash]
        exact .error _
      rename_i hslash
      rw [if_neg hslash, if_neg hslash]
      split at hF
      · rename_i hlong
        rw [if_pos hlong, if_pos hlong]
        exact .error _
      rename_i hlong
      rw [if_neg hlong, if_neg hlong]
      have hname := hF _ List.mem_cons_self
      have hentry := h.names hhere hname
      rw [entry?_of_dir name hv, entry?_of_dir name hu] at hentry
      have hF := fun t ht => hF t (List.mem_cons_of_mem _ ht)
      generalize entries.lookup name = found at hentry ⊢
      generalize entries'.lookup name = found' at hentry hF ⊢
      cases hentry with
      | none =>
        dsimp only
        split
        · exact .missing hhere hnode hname (by simp [entries?, hv]) (by simp [entries?, hu])
        · exact .error _
      | @some i i' hi =>
        have hthere := hF _ List.mem_cons_self
        obtain ⟨m, m', hmv, hmu, hmtied⟩ := h.node hi hthere
        have hF := fun t ht => hF t (List.mem_cons_of_mem _ ht)
        dsimp only at hF ⊢
        rw [hmu] at hF
        rw [hmv, hmu]
        cases hmtied with
        | link target =>
          dsimp only at hF ⊢
          split at hF
          · rename_i hlast
            rw [if_pos hlast, if_pos hlast]
            exact .found hi hthere
          rename_i hlast
          rw [if_neg hlast, if_neg hlast]
          split at hF
          · rename_i hempty
            rw [if_pos hempty, if_pos hempty]
            exact .error _
          rename_i hempty
          rw [if_neg hempty, if_neg hempty]
          exact hfollow _ _ _ (startOf_tied hhere target) hF
        | file content executable => exact ih hi hF
        | dir hparent entries entries' => exact ih hi hF
        | device d => exact ih hi hF
        | program p => exact ih hi hF
    | file content executable => exact .error _
    | link target => exact .error _
    | device d => exact .error _
    | program p => exact .error _

theorem walk_tied (h : FilesAlike F T v u) {how : Walk} (links : Nat) {here here' : Ino} (names : List String)
    (hhere : T.node here here') (hF : ∀ t ∈ u.trail how links here' names, F t) :
    SpotTied F T v u (v.walk how links here names) (u.walk how links here' names) := by
  induction links generalizing here here' names with
  | zero => exact walkWith_tied h (fun _ _ _ _ _ => .error _) names hhere hF
  | succ links ih => exact walkWith_tied h (fun _ _ names => ih names) names hhere hF

/-- Paths lead to the same places in file systems that are alike. -/
theorem locate_tied (h : FilesAlike F T v u) {how : Walk} {base base' : Ino} (path : String)
    (hbase : T.node base base') (hF : ∀ t ∈ u.trailOf base' path how, F t) :
    SpotTied F T v u (v.locate base path how) (u.locate base' path how) := by
  unfold locate
  unfold trailOf at hF
  split at hF
  · rename_i hempty
    rw [if_pos hempty, if_pos hempty]
    exact .error _
  rename_i hempty
  rw [if_neg hempty, if_neg hempty]
  split at hF
  · rename_i hlong
    rw [if_pos hlong, if_pos hlong]
    exact .error _
  rename_i hlong
  rw [if_neg hlong, if_neg hlong]
  exact walk_tied h maxLinks (steps path) (startOf_tied hbase path) hF

/-- What two paths lead to, if they lead somewhere. -/
inductive FoundTied (F : Touch → Prop) (T : Ties) : Except Errno Ino → Except Errno Ino → Prop
  | error (e : Errno) : FoundTied F T (.error e) (.error e)
  | ok {i i' : Ino} (h : T.node i i') (hF : F (.node i')) : FoundTied F T (.ok i) (.ok i')

theorem find_tied (h : FilesAlike F T v u) {followLast : Bool} {base base' : Ino} (path : String)
    (hbase : T.node base base') (hF : ∀ t ∈ u.trailOf base' path { followLast }, F t) :
    FoundTied F T (v.find base path followLast) (u.find base' path followLast) := by
  have hlocate := locate_tied h path hbase hF
  unfold find
  generalize v.locate base path { followLast } = spot at hlocate ⊢
  generalize u.locate base' path { followLast } = spot' at hlocate ⊢
  cases hlocate with
  | error e => exact .error e
  | found hi hFi => exact .ok hi hFi
  | missing hd hFd hname hdir hdir' => exact .error _

theorem stat_eq (h : FilesAlike F T v u) {followLast : Bool} {base base' : Ino} (path : String)
    (hbase : T.node base base') (hF : ∀ t ∈ u.trailOf base' path { followLast }, F t) :
    v.stat base path followLast = u.stat base' path followLast := by
  have hfind := find_tied h path hbase hF
  unfold stat
  generalize v.find base path followLast = found at hfind ⊢
  generalize u.find base' path followLast = found' at hfind ⊢
  cases hfind with
  | error e => rfl
  | ok hi hFi =>
    obtain ⟨n, n', hv, hu, htied⟩ := h.node hi hFi
    simp only [hv, hu, htied.kind]

theorem fetch_eq (h : FilesAlike F T v u) {base base' : Ino} (path : String) (hbase : T.node base base')
    (hF : ∀ t ∈ u.trailOf base' path { followLast := true }, F t) : v.fetch base path = u.fetch base' path := by
  have hfind := find_tied h path hbase hF
  unfold fetch
  generalize v.find base path true = found at hfind ⊢
  generalize u.find base' path true = found' at hfind ⊢
  cases hfind with
  | error e => rfl
  | ok hi hFi =>
    obtain ⟨n, n', hv, hu, htied⟩ := h.node hi hFi
    simp only [hv, hu]
    cases htied <;> rfl

/-! ## Changes to files -/

/-- What is not a directory has no names. -/
theorem entry?_of_kind {fs : FileSystem} {i : Ino} {n : Node} (hn : n.kind ≠ .dir) (h : fs.node? i = some n)
    (name : String) : fs.entry? i name = none := by
  cases n with
  | dir parent entries => exact absurd rfl hn
  | _ => simp [ entry?, entries?, h]

theorem entry?_congr {fs fs' : FileSystem} {i : Ino} (h : fs'.node? i = fs.node? i) (name : String) :
    fs'.entry? i name = fs.entry? i name := by
  simp only [ entry?, entries?, h]

/-- Replacing two tied nodes that are not directories. -/
theorem setNode_alike (h : FilesAlike F T v u) {i i' : Ino} {n n' : Node} (hi : T.node i i') (hn : NodeTied T n n')
    (hkind : n.kind ≠ .dir) : FilesAlike F T (v.setNode i n) (u.setNode i' n') := by
  have hself : (v.setNode i n).node? i = some n := Array.getElem?_setIfInBounds_self_of_lt (h.bound hi).1
  have hself' : (u.setNode i' n').node? i' = some n' := Array.getElem?_setIfInBounds_self_of_lt (h.bound hi).2
  refine ⟨?_, ?_, ?_⟩
  · intro j j' hj
    have hbound := h.bound hj
    simpa only [setNode, Array.size_setIfInBounds] using hbound
  · intro j j' hj hF
    by_cases hij : i = j
    · cases hij
      cases (T.node_inj hi hj).1 rfl
      rw [hself, hself']
      exact .some hn
    · have hij' : i' ≠ j' := fun heq => hij ((T.node_inj hi hj).2 heq)
      rw [node?_setNode_ne hij, node?_setNode_ne hij']
      exact h.nodes hj hF
  · intro d d' name hd hF
    by_cases hid : i = d
    · cases hid
      cases (T.node_inj hi hd).1 rfl
      rw [entry?_of_kind hkind hself, entry?_of_kind (hn.kind ▸ hkind) hself']
      exact .none
    · have hid' : i' ≠ d' := fun heq => hid ((T.node_inj hi hd).2 heq)
      rw [entry?_congr (node?_setNode_ne hid), entry?_congr (node?_setNode_ne hid')]
      exact h.names hd hF

theorem node?_addNode_self {fs : FileSystem} {n : Node} : (fs.addNode n).1.node? fs.nodes.size = some n :=
  Array.getElem?_push_size

/-- Making two tied nodes that are not directories. -/
theorem addNode_alike (h : FilesAlike F T v u) {n n' : Node} (hn : NodeTied T n n') (hkind : n.kind ≠ .dir) :
    FilesAlike F (T.withNode v.nodes.size u.nodes.size h.fresh) (v.addNode n).1 (u.addNode n').1 := by
  have hle := T.le_withNode h.fresh
  refine ⟨?_, ?_, ?_⟩
  · rintro j j' (hj | ⟨rfl, rfl⟩)
    · simp only [addNode, Array.size_push]
      exact ⟨Nat.lt_succ_of_lt (h.bound hj).1, Nat.lt_succ_of_lt (h.bound hj).2⟩
    · simp [addNode]
  · rintro j j' (hj | ⟨rfl, rfl⟩) hF
    · rw [node?_addNode_of_lt (h.bound hj).1, node?_addNode_of_lt (h.bound hj).2]
      exact optionRel_mono (fun _ _ => NodeTied.mono hle) (h.nodes hj hF)
    · rw [node?_addNode_self, node?_addNode_self]
      exact .some (hn.mono hle)
  · rintro d d' name (hd | ⟨rfl, rfl⟩) hF
    · rw [entry?_congr (node?_addNode_of_lt (h.bound hd).1), entry?_congr (node?_addNode_of_lt (h.bound hd).2)]
      exact optionRel_mono (fun _ _ => hle.node) (h.names hd hF)
    · rw [entry?_of_kind hkind node?_addNode_self, entry?_of_kind (hn.kind ▸ hkind) node?_addNode_self]
      exact .none

/-! ### Names -/

theorem lookup_cons_eq (entries : List (String × Ino)) (name : String) (i : Ino) (m : String) :
    ((name, i) :: entries).lookup m = if m = name then some i else entries.lookup m := by
  by_cases h : m = name
  · simp [h]
  · simp [List.lookup_cons, beq_false_of_ne h, h]

theorem lookup_map_set (entries : List (String × Ino)) (name : String) (i : Ino) (m : String) :
    (entries.map fun e => if e.1 = name then (name, i) else e).lookup m =
      if m = name then (entries.lookup name).map fun _ => i else entries.lookup m := by
  induction entries with
  | nil => simp
  | cons e rest ih =>
    obtain ⟨key, j⟩ := e
    rw [List.map_cons, lookup_cons_eq, lookup_cons_eq]
    by_cases hkey : key = name
    · subst hkey
      simp only [↓reduceIte, lookup_cons_eq, ih, Option.map_some]
      split <;> rfl
    · simp only [if_neg hkey, if_neg (Ne.symm hkey), lookup_cons_eq, ih]
      by_cases hm : m = key
      · subst hm
        rw [if_pos rfl, if_neg hkey, if_pos rfl]
      · rw [if_neg hm, if_neg hm]

/-- Looking up a name after one was set, where it was or at the end. -/
theorem lookup_set (entries : List (String × Ino)) (name : String) (i : Ino) (m : String) :
    (if (entries.lookup name).isSome then entries.map fun e => if e.1 = name then (name, i) else e
      else entries ++ [(name, i)]).lookup m = if m = name then some i else entries.lookup m := by
  split
  · rename_i hsome
    obtain ⟨j, hj⟩ := Option.isSome_iff_exists.1 hsome
    rw [lookup_map_set, hj]
    rfl
  · rename_i hnone
    rw [Option.not_isSome_iff_eq_none] at hnone
    rw [List.lookup_append, lookup_cons_eq]
    by_cases hm : m = name
    · subst hm
      simp [hnone]
    · simp [hm]

theorem entry?_setEntry {fs : FileSystem} {d : Ino} {name : String} {i : Ino} (hd : (fs.entries? d).isSome = true)
    (e : Ino) (m : String) :
    entry? (fs.setEntry d name (some i)) e m = if e = d ∧ m = name then some i else fs.entry? e m := by
  obtain ⟨parent, entries, hdir⟩ := dir_of_entries? hd
  have hset : (fs.setEntry d name (some i)).node? d = some (.dir parent
      (if (entries.lookup name).isSome then entries.map fun e => if e.1 = name then (name, i) else e
        else entries ++ [(name, i)])) := by
    simp only [setEntry, hdir]
    exact node?_setNode_self hdir
  by_cases he : e = d
  · subst he
    rw [entry?_of_dir m hset, entry?_of_dir m hdir, lookup_set]
    simp
  · rw [if_neg (fun h => he h.1)]
    refine entry?_congr ?_ m
    simp only [setEntry, hdir]
    exact node?_setNode_ne (Ne.symm he)

/-- Setting a name changes nothing else about nodes. -/
theorem bare_setEntry {fs : FileSystem} (d : Ino) (name : String) (target : Option Ino) (j : Ino) :
    ((fs.setEntry d name target).node? j).map Node.bare = (fs.node? j).map Node.bare := by
  unfold setEntry
  split
  · rename_i parent entries hdir
    by_cases hj : d = j
    · subst hj
      rw [node?_setNode_self hdir, hdir]
      rfl
    · rw [node?_setNode_ne hj]
  · rfl

theorem size_setEntry {fs : FileSystem} (d : Ino) (name : String) (target : Option Ino) :
    (fs.setEntry d name target).nodes.size = fs.nodes.size := by
  unfold setEntry
  split
  · exact Array.size_setIfInBounds
  · rfl

/-- Setting a name in two tied directories. -/
theorem setEntry_alike (h : FilesAlike F T v u) {d d' i i' : Ino} {name : String} (hd : T.node d d')
    (hi : T.node i i') (hdir : (v.entries? d).isSome = true) (hdir' : (u.entries? d').isSome = true) :
    FilesAlike F T (v.setEntry d name (some i)) (u.setEntry d' name (some i')) := by
  refine ⟨?_, ?_, ?_⟩
  · intro j j' hj
    rw [size_setEntry, size_setEntry]
    exact h.bound hj
  · intro j j' hj hF
    exact nodeTied_of_bare (h.nodes hj hF) (bare_setEntry ..) (bare_setEntry ..)
  · intro e e' m he hF
    rw [entry?_setEntry hdir, entry?_setEntry hdir']
    by_cases hsame : e = d ∧ m = name
    · rw [if_pos hsame, if_pos ⟨(T.node_inj he hd).1 hsame.1, hsame.2⟩]
      exact .some hi
    · rw [if_neg hsame, if_neg fun hsame' => hsame ⟨(T.node_inj he hd).2 hsame'.1, hsame'.2⟩]
      exact h.names he hF

theorem create_alike (h : FilesAlike F T v u) {d d' : Ino} {name : String} {n : Node} (hd : T.node d d')
    (hdir : (v.entries? d).isSome = true) (hdir' : (u.entries? d').isSome = true) (hn : NodeTied T n n)
    (hkind : n.kind ≠ .dir) :
    FilesAlike F (T.withNode v.nodes.size u.nodes.size h.fresh) (v.create d name n).1 (u.create d' name n).1 := by
  refine setEntry_alike (addNode_alike h hn hkind) (.inl hd) (.inr ⟨rfl, rfl⟩) ?_ ?_
  · rw [entries?, node?_addNode_of_lt (h.bound hd).1]
    exact hdir
  · rw [entries?, node?_addNode_of_lt (h.bound hd).2]
    exact hdir'

theorem emptied_alike (h : FilesAlike F T v u) {i i' : Ino} (hi : T.node i i') (hF : F (.node i')) :
    FilesAlike F T (v.emptied i) (u.emptied i') := by
  obtain ⟨n, n', hv, hu, htied⟩ := h.node hi hF
  unfold emptied
  rw [hv, hu]
  cases htied with
  | file content executable => exact setNode_alike h hi (.file [] executable) FileKind.noConfusion
  | _ => exact h

/-- What opening two paths comes to. -/
inductive OpenTied (F : Touch → Prop) (T : Ties) :
    Except Errno (FileSystem × Ino) → Except Errno (FileSystem × Ino) → Prop
  | error (e : Errno) : OpenTied F T (.error e) (.error e)
  | ok {T' : Ties} {v u : FileSystem} {i i' : Ino} (hle : T.Le T') (hfile : T'.file = T.file)
      (halike : FilesAlike F T' v u) (hi : T'.node i i') : OpenTied F T (.ok (v, i)) (.ok (u, i'))

theorem openNode_tied (h : FilesAlike F T v u) {base base' : Ino} (path : String) (mode : Mode)
    (hbase : T.node base base')
    (hF : ∀ t ∈ u.trailOf base' path { followLast := true, creating := mode ≠ .read }, F t) :
    OpenTied F T (v.openNode base path mode) (u.openNode base' path mode) := by
  have hlocate := locate_tied h path hbase hF
  unfold openNode
  generalize v.locate base path _ = spot at hlocate ⊢
  generalize u.locate base' path _ = spot' at hlocate ⊢
  cases hlocate with
  | error e => exact .error e
  | missing hd hFd hname hdir hdir' =>
    dsimp only
    split
    · exact .error _
    · exact .ok (T.le_withNode h.fresh) rfl
        (create_alike h hd hdir hdir' (.file [] false) FileKind.noConfusion) (.inr ⟨rfl, rfl⟩)
  | @found i i' hi hFi =>
    obtain ⟨n, n', hv, hu, htied⟩ := h.node hi hFi
    have hkept : OpenTied F T (.ok (v, i)) (.ok (u, i')) := .ok (.refl T) rfl h hi
    have hemptied : OpenTied F T (if mode = .truncate then .ok (v.emptied i, i) else .ok (v, i))
        (if mode = .truncate then .ok (u.emptied i', i') else .ok (u, i')) := by
      split
      · exact .ok (.refl T) rfl (emptied_alike h hi hFi) hi
      · exact hkept
    dsimp only
    rw [hv, hu]
    cases htied with
    | dir hparent entries entries' =>
      dsimp only
      split
      · exact hkept
      · exact .error _
    | program name =>
      dsimp only
      split
      · exact hkept
      · exact .error _
    | device d =>
      cases d with
      | absent => exact .error _
      | _ => exact hemptied
    | file content executable => exact hemptied
    | link target => exact hemptied

end FileSystem

/-! ## A file system and itself -/

/-- The nodes that a node names. -/
def Node.names : Node → List Ino
  | .dir parent entries => parent :: entries.map (·.2)
  | _ => []

namespace FileSystem

/-- Every number in a file system is that of a node. -/
def Sound (fs : FileSystem) : Prop :=
  root < fs.nodes.size ∧ ∀ n ∈ fs.nodes, ∀ i ∈ n.names, i < fs.nodes.size

instance (fs : FileSystem) : Decidable fs.Sound :=
  inferInstanceAs (Decidable (_ ∧ _))

/-- Every node stands for itself, and no file is open yet. -/
def selfTies (fs : FileSystem) (h : fs.Sound) : Ties where
  node i i' := i' = i ∧ i < fs.nodes.size
  file _ _ := False
  root := ⟨rfl, h.1⟩
  node_inj := by
    rintro i i' j j' ⟨rfl, -⟩ ⟨rfl, -⟩
    exact Iff.rfl
  file_inj := fun h => h.elim

theorem alike_self {F : Touch → Prop} (fs : FileSystem) (h : fs.Sound) : FilesAlike F (fs.selfTies h) fs fs := by
  have hnames : ∀ {i : Ino} {n : Node}, fs.node? i = some n → ∀ j ∈ n.names, (fs.selfTies h).node j j := by
    intro i n hn j hj
    exact ⟨rfl, h.2 n (Array.mem_of_getElem? hn) j hj⟩
  refine ⟨?_, ?_, ?_⟩
  · rintro i i' ⟨rfl, hi⟩
    exact ⟨hi, hi⟩
  · rintro i i' ⟨rfl, -⟩ -
    cases hn : fs.node? i' with
    | none => exact .none
    | some n =>
      refine .some ?_
      cases n with
      | file content executable => exact .file _ _
      | dir parent entries => exact .dir (hnames hn parent List.mem_cons_self) _ _
      | link target => exact .link _
      | device d => exact .device _
      | program name => exact .program _
  · rintro d d' name ⟨rfl, -⟩ -
    cases hentry : fs.entry? d' name with
    | none => exact .none
    | some i =>
      have hdir : (fs.entries? d').isSome = true := by
        obtain ⟨entries, hentries, -⟩ := Option.bind_eq_some_iff.1 hentry
        rw [hentries]
        rfl
      obtain ⟨parent, entries, hnode⟩ := dir_of_entries? hdir
      rw [entry?_of_dir name hnode] at hentry
      obtain ⟨before, after, rfl, -⟩ := List.lookup_eq_some_iff.1 hentry
      exact .some (hnames hnode i (by simp [Node.names]))

end FileSystem

end Conch
