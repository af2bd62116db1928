-- SUMMARY: Walks that lead somewhere as a relation, and what writing one file changes about a file system.
import Conch.Proofs.System.Alike

/-!
# Writing one file

A path that can be written to leads to a file or to a name that is free. `Wrote` says
all that is different once something was written there: the file has a new content,
and a free name stands for a new file. Paths that lead somewhere still lead there,
except that the free name is now found, and so paths that led to different places
still do.

Such facts are about walks that succeed, so these are set out as a relation with one
rule for each thing that a name can do.
-/

namespace Conch

/-- The content of a stored file. -/
def Node.stored? : Node → Option Bytes
  | .file content _ => some content
  | _ => none

namespace FileSystem

variable {fs fs' fs'' : FileSystem} {how : Walk} {links : Nat} {here : Ino} {names : List String}

/-! ## Walks that lead somewhere -/

/-- A name that is looked up in a directory. -/
structure Proper (how : Walk) (name : String) (rest : List String) : Prop where
  ne_empty : name ≠ ""
  ne_dot : name ≠ "."
  ne_up : name ≠ ".."
  no_slash : how.creating = true → rest ≠ [""]
  fits : byteSize name ≤ maxName

/-- A walk from a directory that follows at most the given number of links and leads to a spot. -/
inductive Walks (fs : FileSystem) (how : Walk) : Nat → Ino → List String → Spot → Prop
  | done (links : Nat) (here : Ino) : Walks fs how links here [] (.found here)
  | stay {links : Nat} {here parent : Ino} {entries : List (String × Ino)} {name : String} {rest : List String}
      {s : Spot} (hdir : fs.node? here = some (.dir parent entries)) (hname : name = "" ∨ name = ".")
      (hrest : Walks fs how links here rest s) : Walks fs how links here (name :: rest) s
  | up {links : Nat} {here parent : Ino} {entries : List (String × Ino)} {rest : List String} {s : Spot}
      (hdir : fs.node? here = some (.dir parent entries)) (hrest : Walks fs how links parent rest s) :
    Walks fs how links here (".." :: rest) s
  | missing {links : Nat} {here : Ino} {name : String} (hname : Proper how name [])
      (hdir : (fs.entries? here).isSome = true) (hentry : fs.entry? here name = none) :
    Walks fs how links here [name] (.missing here name)
  | into {links : Nat} {here i : Ino} {name : String} {rest : List String} {s : Spot}
      (hname : Proper how name rest) (hentry : fs.entry? here name = some i)
      (hplain : ∀ target, fs.node? i ≠ some (.link target)) (hrest : Walks fs how links i rest s) :
    Walks fs how links here (name :: rest) s
  /-- A link at the end is not followed. -/
  | stop {links : Nat} {here i : Ino} {name target : String} (hname : Proper how name [])
      (hentry : fs.entry? here name = some i) (hlink : fs.node? i = some (.link target))
      (hlast : how.followLast = false) : Walks fs how links here [name] (.found i)
  | follow {links : Nat} {here i : Ino} {name target : String} {rest : List String} {s : Spot}
      (hname : Proper how name rest) (hentry : fs.entry? here name = some i)
      (hlink : fs.node? i = some (.link target)) (hlast : rest = [] → how.followLast = true) (htarget : target ≠ "")
      (hrest : Walks fs how links (startOf here target) (stepsThrough target rest) s) :
    Walks fs how (links + 1) here (name :: rest) s

theorem isDir_of_entry? {d i : Ino} {name : String} (h : fs.entry? d name = some i) :
    ∃ parent entries, fs.node? d = some (.dir parent entries) := by
  obtain ⟨entries, hentries, -⟩ := Option.bind_eq_some_iff.1 h
  exact dir_of_entries? (by simp [hentries])

/-- One name of a walk that leads somewhere is taken by one of the rules. -/
theorem walks_of_walkWith {follow : Ino → List String → Except Errno Spot} {s : Spot}
    (hfollow : ∀ here names, follow here names = .ok s → ∃ n, links = n + 1 ∧ Walks fs how n here names s)
    (h : fs.walkWith follow how here names = .ok s) : Walks fs how links here names s := by
  induction names generalizing here with
  | nil =>
    cases h
    exact .done links here
  | cons name rest ih =>
    unfold walkWith at h
    split at h
    case h_2 => cases h
    rename_i parent entries hdir
    split at h
    · rename_i hdot
      exact .stay hdir (by simpa using hdot) (ih h)
    rename_i hdot
    split at h
    · rename_i hup
      cases hup
      exact .up hdir (ih h)
    rename_i hup
    split at h
    · cases h
    rename_i hslash
    split at h
    · cases h
    rename_i hlong
    simp only [Bool.or_eq_true, decide_eq_true_eq, not_or] at hdot
    have hname : Proper how name rest :=
      ⟨hdot.1, hdot.2, hup, by simpa using hslash, Nat.le_of_not_lt hlong⟩
    rw [← entry?_of_dir name hdir] at h
    split at h
    · rename_i hentry
      split at h
      · rename_i hlast
        obtain rfl := List.isEmpty_iff.1 hlast
        cases h
        exact .missing hname (by simp [entries?, hdir]) hentry
      · cases h
    rename_i i hentry
    split at h
    · rename_i target hlink
      split at h
      · rename_i hlast
        simp only [Bool.and_eq_true, List.isEmpty_iff, Bool.not_eq_true'] at hlast
        obtain ⟨rfl, hlast⟩ := hlast
        cases h
        exact .stop hname hentry hlink hlast
      rename_i hlast
      split at h
      · cases h
      rename_i htarget
      obtain ⟨n, rfl, hrest⟩ := hfollow _ _ h
      exact .follow hname hentry hlink (by simpa using hlast) htarget hrest
    · rename_i hplain
      exact .into hname hentry hplain (ih h)

theorem walks_of_walk {s : Spot} (h : fs.walk how links here names = .ok s) : Walks fs how links here names s := by
  induction links generalizing here names with
  | zero => exact walks_of_walkWith (fun _ _ hfollow => by cases hfollow) h
  | succ n ih => exact walks_of_walkWith (fun _ _ hfollow => ⟨n, rfl, ih hfollow⟩) h

theorem walk_eq_walkWith (fs : FileSystem) (how : Walk) (links : Nat) :
    ∃ follow, fs.walk how links = fs.walkWith follow how := by
  cases links with
  | zero => exact ⟨_, rfl⟩
  | succ n => exact ⟨_, rfl⟩

theorem Proper.not_slash {name : String} {rest : List String} (h : Proper how name rest) :
    (how.creating && decide (rest = [""])) = false := by
  simpa using h.no_slash

theorem Walks.walk_eq {s : Spot} (h : Walks fs how links here names s) : fs.walk how links here names = .ok s := by
  induction h with
  | done links here =>
    obtain ⟨follow, hwalk⟩ := walk_eq_walkWith fs how links
    simp [hwalk, walkWith]
  | @stay links here parent entries name rest s hdir hname hrest ih =>
    obtain ⟨follow, hwalk⟩ := walk_eq_walkWith fs how links
    rw [hwalk] at ih ⊢
    simp [walkWith, hdir, hname, ih]
  | @up links here parent entries rest s hdir hrest ih =>
    obtain ⟨follow, hwalk⟩ := walk_eq_walkWith fs how links
    rw [hwalk] at ih ⊢
    simp [walkWith, hdir, ih]
  | @missing links here name hname hdir hentry =>
    obtain ⟨follow, hwalk⟩ := walk_eq_walkWith fs how links
    obtain ⟨parent, entries, hnode⟩ := dir_of_entries? hdir
    rw [entry?_of_dir name hnode] at hentry
    simp [hwalk, walkWith, hnode, hentry, hname.ne_empty, hname.ne_dot, hname.ne_up, Nat.not_lt.2 hname.fits]
  | @into links here i name rest s hname hentry hplain hrest ih =>
    obtain ⟨follow, hwalk⟩ := walk_eq_walkWith fs how links
    obtain ⟨parent, entries, hnode⟩ := isDir_of_entry? hentry
    rw [entry?_of_dir name hnode] at hentry
    rw [hwalk] at ih ⊢
    simp [walkWith, hnode, hentry, ih, hname.ne_empty, hname.ne_dot, hname.ne_up, hname.not_slash,
      Nat.not_lt.2 hname.fits]
  | @stop links here i name target hname hentry hlink hlast =>
    obtain ⟨follow, hwalk⟩ := walk_eq_walkWith fs how links
    obtain ⟨parent, entries, hnode⟩ := isDir_of_entry? hentry
    rw [entry?_of_dir name hnode] at hentry
    simp [hwalk, walkWith, hnode, hentry, hlink, hlast, hname.ne_empty, hname.ne_dot, hname.ne_up,
      Nat.not_lt.2 hname.fits]
  | @follow links here i name target rest s hname hentry hlink hlast htarget hrest ih =>
    obtain ⟨parent, entries, hnode⟩ := isDir_of_entry? hentry
    rw [entry?_of_dir name hnode] at hentry
    have hfollowed : (rest.isEmpty && !how.followLast) = false := by simpa using hlast
    simp [walk, walkWith, hnode, hentry, hlink, hfollowed, htarget, ih, hname.ne_empty, hname.ne_dot, hname.ne_up,
      hname.not_slash, Nat.not_lt.2 hname.fits]

theorem walk_eq_ok_iff {s : Spot} : fs.walk how links here names = .ok s ↔ Walks fs how links here names s :=
  ⟨walks_of_walk, Walks.walk_eq⟩

/-- Asking for a place to write to finds no other place than asking what is there. -/
theorem Walks.asking {s : Spot} (h : Walks fs how links here names s) :
    Walks fs { how with creating := false } links here names s := by
  have hproper : ∀ {name rest}, Proper how name rest → Proper { how with creating := false } name rest :=
    fun h => ⟨h.ne_empty, h.ne_dot, h.ne_up, nofun, h.fits⟩
  induction h with
  | done links here => exact .done links here
  | stay hdir hname hrest ih => exact .stay hdir hname ih
  | up hdir hrest ih => exact .up hdir ih
  | missing hname hdir hentry => exact .missing (hproper hname) hdir hentry
  | into hname hentry hplain hrest ih => exact .into (hproper hname) hentry hplain ih
  | stop hname hentry hlink hlast => exact .stop (hproper hname) hentry hlink hlast
  | follow hname hentry hlink hlast htarget hrest ih => exact .follow (hproper hname) hentry hlink hlast htarget ih

theorem locate_eq_ok_iff {base : Ino} {path : String} {s : Spot} :
    fs.locate base path how = .ok s ↔
      path ≠ "" ∧ byteSize path < pathLimit ∧ Walks fs how maxLinks (startOf base path) (steps path) s := by
  unfold locate
  split
  · simp [*]
  rename_i hempty
  split
  · rename_i hlong
    simp [Nat.not_lt.2 hlong]
  · rename_i hfits
    simp [walk_eq_ok_iff, hempty, Nat.lt_of_not_le hfits]

/-! ## What numbers stand for -/

/-- Every number that is met on a walk is that of a node. -/
structure Linked (fs : FileSystem) : Prop where
  root : (fs.node? root).isSome = true
  parents : ∀ {i parent : Ino} {entries : List (String × Ino)}, fs.node? i = some (.dir parent entries) →
    (fs.node? parent).isSome = true
  names : ∀ {d i : Ino} {name : String}, fs.entry? d name = some i → (fs.node? i).isSome = true

theorem isSome_node? {i : Ino} (h : i < fs.nodes.size) : (fs.node? i).isSome = true := by
  simp [node?, h]

theorem Sound.linked (h : fs.Sound) : fs.Linked where
  root := isSome_node? h.1
  parents hdir := isSome_node? (h.2 _ (Array.mem_of_getElem? hdir) _ List.mem_cons_self)
  names := by
    intro d i name hentry
    obtain ⟨parent, entries, hdir⟩ := isDir_of_entry? hentry
    rw [entry?_of_dir name hdir] at hentry
    obtain ⟨before, after, rfl, -⟩ := List.lookup_eq_some_iff.1 hentry
    exact isSome_node? (h.2 _ (Array.mem_of_getElem? hdir) i (by simp [Node.names]))

/-- What is known of a spot once a walk has led there. -/
def There (fs : FileSystem) : Spot → Prop
  | .found i => (fs.node? i).isSome = true
  | .missing d name => (fs.entries? d).isSome = true ∧ fs.entry? d name = none

/-- A spot that is no number without a node. -/
def Known (fs : FileSystem) (s : Spot) : Prop :=
  ∀ i, s = .found i → (fs.node? i).isSome = true

theorem There.known {s : Spot} (h : fs.There s) : fs.Known s := by
  intro i hi
  subst hi
  exact h

theorem Linked.startOf (h : fs.Linked) (hhere : (fs.node? here).isSome = true) (path : String) :
    (fs.node? (startOf here path)).isSome = true := by
  unfold FileSystem.startOf
  split
  · exact h.root
  · exact hhere

theorem Walks.there {s : Spot} (hlinked : fs.Linked) (h : Walks fs how links here names s)
    (hhere : (fs.node? here).isSome = true) : fs.There s := by
  induction h with
  | done links here => exact hhere
  | stay hdir hname hrest ih => exact ih hhere
  | up hdir hrest ih => exact ih (hlinked.parents hdir)
  | missing hname hdir hentry => exact ⟨hdir, hentry⟩
  | into hname hentry hplain hrest ih => exact ih (hlinked.names hentry)
  | stop hname hentry hlink hlast => exact hlinked.names hentry
  | follow hname hentry hlink hlast htarget hrest ih => exact ih (hlinked.startOf hhere _)

theorem there_of_locate (hlinked : fs.Linked) {path : String} {s : Spot} (h : fs.locate root path how = .ok s) :
    fs.There s :=
  (locate_eq_ok_iff.1 h).2.2.there hlinked (hlinked.startOf hlinked.root path)

/-! ## One file written -/

/-- What is at a spot that can be written to: the content of a stored file, and nothing where a name is free. -/
def held? (fs : FileSystem) : Spot → Option Bytes
  | .found i => (fs.node? i).bind Node.stored?
  | .missing _ _ => some []

/-- A spot that can be written to. -/
structure Writable (fs : FileSystem) (spot : Spot) : Prop where
  there : fs.There spot
  held : (fs.held? spot).isSome = true

/-- The number of the file at a spot once it is written to: a file that is made gets the next one. -/
def nodeAt (fs : FileSystem) : Spot → Ino
  | .found i => i
  | .missing _ _ => fs.nodes.size

/-- Where a walk leads once the file at a spot is written to. -/
def moved (fs : FileSystem) (spot s : Spot) : Spot :=
  if s = spot then .found (fs.nodeAt spot) else s

/-- A file was written and has a content now, and nothing else is different. -/
structure Wrote (fs : FileSystem) (spot : Spot) (content : Bytes) (fs' : FileSystem) : Prop where
  file : ∃ executable, fs'.node? (fs.nodeAt spot) = some (.file content executable)
  others : ∀ i, i ≠ fs.nodeAt spot → (fs'.node? i).map Node.bare = (fs.node? i).map Node.bare
  names : ∀ d name, fs'.entry? d name = if spot = .missing d name then some (fs.nodeAt spot) else fs.entry? d name

theorem bare_eq_link {n : Node} {target : String} : n.bare = .link target ↔ n = .link target := by
  cases n <;> simp [Node.bare]

theorem stored?_bare (n : Node) : n.bare.stored? = n.stored? := by
  cases n <;> rfl

theorem bare_eq_dir {n : Node} {parent : Ino} :
    n.bare = .dir parent [] ↔ ∃ entries, n = .dir parent entries := by
  cases n <;> simp [Node.bare]

@[simp] theorem moved_found (spot : Spot) (i : Ino) : fs.moved spot (.found i) = .found i := by
  unfold moved
  split
  · rename_i h
    rw [← h]
    rfl
  · rfl

@[simp] theorem moved_self (spot : Spot) : fs.moved spot spot = .found (fs.nodeAt spot) := if_pos rfl

theorem moved_of_ne {spot s : Spot} (h : s ≠ spot) : fs.moved spot s = s := if_neg h

/-- What is there before anything is written is at another number, unless it is what the spot was found to be. -/
theorem ne_nodeAt {spot : Spot} {i : Ino} (hi : (fs.node? i).isSome = true) (hspot : spot ≠ .found i) :
    i ≠ fs.nodeAt spot := by
  intro heq
  cases spot with
  | found j =>
    cases heq
    exact hspot rfl
  | missing d name =>
    obtain ⟨n, hn⟩ := Option.isSome_iff_exists.1 hi
    cases heq
    exact Nat.lt_irrefl _ (lt_size_of_node? hn)

/-- What can be written to is no other thing than a stored file. -/
theorem ne_found {spot : Spot} {i : Ino} {n : Node} (hheld : (fs.held? spot).isSome = true)
    (hn : fs.node? i = some n) (hstored : n.stored? = none) : spot ≠ .found i := by
  intro hspot
  simp [hspot, held?, hn, hstored] at hheld

namespace Wrote

variable {spot : Spot} {content : Bytes}

theorem link_iff (h : Wrote fs spot content fs') (hheld : (fs.held? spot).isSome = true) {i : Ino} {target : String} :
    fs'.node? i = some (.link target) ↔ fs.node? i = some (.link target) := by
  have hbare : ∀ o : Option Node, o.map Node.bare = some (.link target) ↔ o = some (.link target) := by
    intro o
    cases o <;> simp [bare_eq_link]
  by_cases hi : i = fs.nodeAt spot
  · obtain ⟨executable, hfile⟩ := h.file
    constructor
    · intro hlink
      rw [hi, hfile] at hlink
      cases hlink
    · intro hlink
      exact absurd hi (ne_nodeAt (by simp [hlink]) (ne_found hheld hlink rfl))
  · simpa [hbare] using congrArg (· = some (Node.link target)) (h.others i hi)

theorem dir (h : Wrote fs spot content fs') (hheld : (fs.held? spot).isSome = true) {i parent : Ino}
    {entries : List (String × Ino)} (hdir : fs.node? i = some (.dir parent entries)) :
    ∃ entries', fs'.node? i = some (.dir parent entries') := by
  have hbare := h.others i (ne_nodeAt (by simp [hdir]) (ne_found hheld hdir rfl))
  rw [hdir] at hbare
  obtain ⟨n, hn, heq⟩ := Option.map_eq_some_iff.1 hbare
  obtain ⟨entries', rfl⟩ := bare_eq_dir.1 heq
  exact ⟨entries', hn⟩

theorem entry (h : Wrote fs spot content fs') (hthere : fs.There spot) {d i : Ino} {name : String}
    (hentry : fs.entry? d name = some i) : fs'.entry? d name = some i := by
  rw [h.names, if_neg]
  · exact hentry
  · intro hspot
    cases hspot
    rw [hthere.2] at hentry
    cases hentry

/-- Walks still lead where they led, and what was a free name is found where it was written. -/
theorem walks (h : Wrote fs spot content fs') (hspot : fs.Writable spot) {s : Spot}
    (hwalks : Walks fs how links here names s) : Walks fs' how links here names (fs.moved spot s) := by
  induction hwalks with
  | done links here =>
    rw [moved_found]
    exact .done links here
  | stay hdir hname hrest ih =>
    obtain ⟨entries', hdir'⟩ := h.dir hspot.held hdir
    exact .stay hdir' hname ih
  | up hdir hrest ih =>
    obtain ⟨entries', hdir'⟩ := h.dir hspot.held hdir
    exact .up hdir' ih
  | @missing links d name hname hdir hentry =>
    by_cases hfree : spot = .missing d name
    -- The name that was free is the only one at which a walk ends otherwise: it goes on into the new file.
    · subst hfree
      obtain ⟨executable, hfile⟩ := h.file
      rw [moved_self]
      refine .into hname (by simp [h.names]) ?_ (.done links _)
      intro target hlink
      rw [hfile] at hlink
      cases hlink
    · obtain ⟨parent, entries, hnode⟩ := dir_of_entries? hdir
      obtain ⟨entries', hnode'⟩ := h.dir hspot.held hnode
      rw [moved_of_ne (Ne.symm hfree)]
      exact .missing hname (by simp [entries?, hnode']) (by simp [h.names, hfree, hentry])
  | into hname hentry hplain hrest ih =>
    refine .into hname (h.entry hspot.there hentry) ?_ ih
    intro target hlink
    exact hplain target ((h.link_iff hspot.held).1 hlink)
  | stop hname hentry hlink hlast =>
    rw [moved_found]
    exact .stop hname (h.entry hspot.there hentry) ((h.link_iff hspot.held).2 hlink) hlast
  | follow hname hentry hlink hlast htarget hrest ih =>
    exact .follow hname (h.entry hspot.there hentry) ((h.link_iff hspot.held).2 hlink) hlast htarget ih

theorem locate (h : Wrote fs spot content fs') (hspot : fs.Writable spot) {base : Ino} {path : String} {s : Spot}
    (hlocate : fs.locate base path how = .ok s) :
    fs'.locate base path how = .ok (fs.moved spot s) := by
  obtain ⟨hempty, hfits, hwalks⟩ := locate_eq_ok_iff.1 hlocate
  exact locate_eq_ok_iff.2 ⟨hempty, hfits, h.walks hspot hwalks⟩

theorem node?_isSome (h : Wrote fs spot content fs') {i : Ino} (hi : (fs.node? i).isSome = true) :
    (fs'.node? i).isSome = true := by
  by_cases hspot : i = fs.nodeAt spot
  · obtain ⟨executable, hfile⟩ := h.file
    simp [hspot, hfile]
  · have hbare := congrArg Option.isSome (h.others i hspot)
    simpa [hi] using hbare

theorem linked (h : Wrote fs spot content fs') (hlinked : fs.Linked) : fs'.Linked where
  root := h.node?_isSome hlinked.root
  parents := by
    intro i parent entries hdir
    have hi : i ≠ fs.nodeAt spot := by
      intro hi
      obtain ⟨executable, hfile⟩ := h.file
      rw [hi, hfile] at hdir
      cases hdir
    have hbare := h.others i hi
    rw [hdir] at hbare
    obtain ⟨n, hn, heq⟩ := Option.map_eq_some_iff.1 hbare.symm
    obtain ⟨entries', rfl⟩ := bare_eq_dir.1 heq
    exact h.node?_isSome (hlinked.parents hn)
  names := by
    intro d i name hentry
    rw [h.names] at hentry
    split at hentry
    · cases hentry
      obtain ⟨executable, hfile⟩ := h.file
      simp [hfile]
    · exact h.node?_isSome (hlinked.names hentry)

theorem held_self (h : Wrote fs spot content fs') : fs'.held? (fs.moved spot spot) = some content := by
  obtain ⟨executable, hfile⟩ := h.file
  simp [held?, hfile, Node.stored?]

theorem held_of_ne (h : Wrote fs spot content fs') {s : Spot} (hs : fs.There s) (hne : s ≠ spot) :
    fs'.held? (fs.moved spot s) = fs.held? s := by
  rw [moved_of_ne hne]
  cases s with
  | missing d name => rfl
  | found i =>
    have hstored : ∀ o : Option Node, o.bind Node.stored? = (o.map Node.bare).bind Node.stored? := by
      intro o
      cases o <;> simp [stored?_bare]
    show (fs'.node? i).bind Node.stored? = (fs.node? i).bind Node.stored?
    rw [hstored, h.others i (ne_nodeAt hs (Ne.symm hne)), ← hstored]

/-- A file as it is was written with what it holds. -/
theorem refl {i : Ino} (hheld : fs.held? (.found i) = some content) : Wrote fs (.found i) content fs where
  file := by
    obtain ⟨n, hn, hstored⟩ := Option.bind_eq_some_iff.1 hheld
    cases n with
    | file old executable =>
      cases hstored
      exact ⟨executable, hn⟩
    | _ => cases hstored
  others _ _ := rfl
  names _ _ := by simp

/-- What was written can be written again. -/
theorem setNode (h : Wrote fs spot content fs') (new : Bytes) (executable : Bool) :
    Wrote fs spot new (fs'.setNode (fs.nodeAt spot) (.file new executable)) := by
  obtain ⟨_, hfile⟩ := h.file
  have hself : (fs'.setNode (fs.nodeAt spot) (.file new executable)).node? (fs.nodeAt spot) =
      some (.file new executable) := node?_setNode_self hfile
  refine ⟨⟨executable, hself⟩, ?_, ?_⟩
  · intro i hi
    rw [node?_setNode_ne (Ne.symm hi)]
    exact h.others i hi
  · intro d name
    rw [← h.names d name]
    by_cases hd : fs.nodeAt spot = d
    · subst hd
      rw [entry?_of_kind FileKind.noConfusion hself, entry?_of_kind FileKind.noConfusion hfile]
    · exact entry?_congr (node?_setNode_ne hd) name

end Wrote

theorem node?_addNode_of_ne {i : Ino} {n : Node} (h : i ≠ fs.nodes.size) : (fs.addNode n).1.node? i = fs.node? i := by
  simp [addNode, node?, Array.getElem?_push, h]

/-- A new file has no names in it, like a number that stands for nothing. -/
theorem entry?_addNode {n : Node} (hn : n.kind ≠ .dir) (d : Ino) (name : String) :
    entry? (fs.addNode n).1 d name = fs.entry? d name := by
  by_cases hd : d = fs.nodes.size
  · subst hd
    rw [entry?_of_kind hn node?_addNode_self]
    simp [ entry?, entries?, node?]
  · exact entry?_congr (node?_addNode_of_ne hd) name

/-- A free name was made to stand for a new file. -/
theorem wrote_create {d : Ino} {name : String} (hthere : fs.There (.missing d name)) (content : Bytes)
    (executable : Bool) : Wrote fs (.missing d name) content (fs.create d name (.file content executable)).1 := by
  have hdir : ((fs.addNode (.file content executable)).1.entries? d).isSome = true := by
    obtain ⟨parent, entries, hnode⟩ := dir_of_entries? hthere.1
    simp [entries?, node?_addNode_of_lt (lt_size_of_node? hnode), hnode]
  refine ⟨⟨executable, ?_⟩, ?_, ?_⟩
  · have hbare := (bare_setEntry d name (some fs.nodes.size) fs.nodes.size).trans
      (congrArg (Option.map Node.bare) (node?_addNode_self (n := .file content executable)))
    obtain ⟨n, hn, heq⟩ := Option.map_eq_some_iff.1 hbare
    cases n with
    | file old x =>
      cases heq
      exact hn
    | _ => cases heq
  · intro i hi
    exact (bare_setEntry d name _ i).trans (congrArg (Option.map Node.bare) (node?_addNode_of_ne hi))
  · intro e m
    refine (entry?_setEntry hdir e m).trans ?_
    rw [entry?_addNode FileKind.noConfusion]
    simp [nodeAt, eq_comm]

/-! ## Paths to write to -/

/-- Where a path leads that something is to be written to. -/
def writingSpot (fs : FileSystem) (path : String) : Except Errno Spot :=
  fs.locate root path { followLast := true, creating := true }

/-- A path that can be written to: it leads to a stored file, or to a free name in a directory. -/
structure Target (fs : FileSystem) (path : String) (spot : Spot) (content : Bytes) : Prop where
  no_nul : hasNul path = false
  leads : fs.writingSpot path = .ok spot
  held : fs.held? spot = some content

namespace Target

variable {path : String} {spot : Spot} {old content : Bytes}

theorem writable (h : fs.Target path spot old) (hlinked : fs.Linked) : fs.Writable spot :=
  ⟨there_of_locate hlinked h.leads, by simp [h.held]⟩

/-- Looking for what is at a path leads to the same place. -/
theorem locate (h : fs.Target path spot old) : fs.locate root path { followLast := true } = .ok spot := by
  obtain ⟨hempty, hfits, hwalks⟩ := locate_eq_ok_iff.1 h.leads
  exact locate_eq_ok_iff.2 ⟨hempty, hfits, hwalks.asking⟩

theorem file (h : fs.Target path spot old) {i : Ino} (hspot : spot = .found i) :
    ∃ executable, fs.node? i = some (.file old executable) := by
  subst hspot
  exact (Wrote.refl h.held).file

theorem not_dir (h : fs.Target path spot old) : fs.stat root path true ≠ .ok .dir := by
  unfold stat find
  rw [h.locate]
  cases spot with
  | missing d name => simp
  | found i =>
    obtain ⟨executable, hnode⟩ := h.file rfl
    simp [hnode, Node.kind]

theorem fetch (h : fs.Target path spot old) {i : Ino} (hspot : spot = .found i) : fs.fetch root path = .ok old := by
  obtain ⟨executable, hnode⟩ := h.file hspot
  simp [FileSystem.fetch, find, h.locate, hspot, hnode]

/-- Opening a file to be overwritten empties it, and opening it to be continued leaves it. -/
theorem openNode (h : fs.Target path spot old) (hlinked : fs.Linked) (append : Bool) :
    ∃ fs', fs.openNode root path (if append then .append else .truncate) = .ok (fs', fs.nodeAt spot) ∧
      Wrote fs spot (if append then old else []) fs' := by
  have hleads := h.leads
  unfold writingSpot at hleads
  have hthere := (h.writable hlinked).there
  cases spot with
  | missing d name =>
    cases h.held
    refine ⟨_, ?_, by simpa using wrote_create hthere [] false⟩
    cases append <;> simp [FileSystem.openNode, hleads, nodeAt, create, addNode]
  | found i =>
    obtain ⟨executable, hnode⟩ := h.file rfl
    cases append with
    | true => exact ⟨fs, by simp [FileSystem.openNode, hleads, hnode, nodeAt], .refl h.held⟩
    | false =>
      refine ⟨_, ?_, (Wrote.refl h.held).setNode [] executable⟩
      simp [FileSystem.openNode, hleads, hnode, emptied, nodeAt]

end Target

/-! ### Leading slashes -/

theorem namesIn_slash (text : String) : namesIn ("/" ++ text) = namesIn text := by
  simp [namesIn, Path.pieces]

theorem steps_slash {text : String} (h : text ≠ "") : steps ("/" ++ text) = steps text := by
  have hlast : endsInSlash ("/" ++ text) = endsInSlash text := by
    have hne : text.toList ≠ [] := by simpa using h
    simp [endsInSlash, List.getLast?_cons_of_ne_nil hne]
  simp only [steps, namesIn_slash, hlast]

/-- An anchor does not matter to the names that a path walks through. -/
theorem steps_anchor (a : Anchor) {text : String} (h : text ≠ "") : steps (a.text ++ text) = steps text := by
  cases a with
  | relative => simp [Anchor.text]
  | root => exact steps_slash h
  | doubleRoot =>
    have htwice : Anchor.doubleRoot.text ++ text = "/" ++ ("/" ++ text) := by simp [Anchor.text, ← String.append_assoc]
    rw [htwice, steps_slash (by simp), steps_slash h]

theorem startOf_root (path : String) : startOf root path = root := by
  unfold startOf
  split <;> rfl

/-- A walk that ends where it is has begun in a directory. -/
theorem Walks.of_stay {name : String} {s : Spot} (hname : name = "" ∨ name = ".")
    (h : Walks fs how links here [name] s) :
    s = .found here ∧ ∃ parent entries, fs.node? here = some (.dir parent entries) := by
  cases h with
  | stay hdir _ hrest =>
    cases hrest
    exact ⟨rfl, _, _, hdir⟩
  | up hdir hrest => simp at hname
  | missing hproper _ _ => exact (hname.elim hproper.ne_empty hproper.ne_dot).elim
  | into hproper _ _ _ => exact (hname.elim hproper.ne_empty hproper.ne_dot).elim
  | stop hproper _ _ _ => exact (hname.elim hproper.ne_empty hproper.ne_dot).elim
  | follow hproper _ _ _ _ _ => exact (hname.elim hproper.ne_empty hproper.ne_dot).elim

/-- A path with nothing but slashes or a dot leads to a directory, which cannot be written to. -/
theorem Target.names_ne {p : Path} {spot : Spot} {old : Bytes} (h : fs.Target p.toString spot old) :
    "/".intercalate p.parts ≠ "" := by
  intro hnone
  obtain ⟨hempty, -, hwalks⟩ := locate_eq_ok_iff.1 h.leads
  have htext : p.toString = "." ∨ p.toString = "/" ∨ p.toString = "//" := by
    unfold Path.toString at hempty ⊢
    split
    · exact .inl rfl
    · rename_i hrelative
      rw [if_neg hrelative, hnone] at hempty
      rw [hnone]
      cases hanchor : p.anchor with
      | relative => simp [hanchor, Anchor.text] at hempty
      | root => exact .inr (.inl rfl)
      | doubleRoot => exact .inr (.inr rfl)
  have hstay : ∃ name, (name = "" ∨ name = ".") ∧ steps p.toString = [name] := by
    rcases htext with htext | htext | htext <;> rw [htext]
    · exact ⟨".", .inr rfl, by decide +kernel⟩
    · exact ⟨"", .inl rfl, by decide +kernel⟩
    · exact ⟨"", .inl rfl, by decide +kernel⟩
  obtain ⟨name, hname, hsteps⟩ := hstay
  rw [hsteps] at hwalks
  obtain ⟨hspot, parent, entries, hdir⟩ := hwalks.of_stay hname
  obtain ⟨executable, hfile⟩ := h.file hspot
  rw [hdir] at hfile
  cases hfile

/-- Paths with the same parts lead to the same place, whatever they start from. -/
theorem Target.spot_eq {p q : Path} {spot spot' : Spot} {old old' : Bytes} (hparts : p.parts = q.parts)
    (hp : fs.Target p.toString spot old) (hq : fs.Target q.toString spot' old') : spot = spot' := by
  have hsteps : ∀ r : Path, "/".intercalate r.parts ≠ "" → steps r.toString = steps ("/".intercalate r.parts) := by
    intro r hr
    have hne : r.parts ≠ [] := by
      intro hnil
      simp [hnil] at hr
    simp only [Path.toString, hne, and_false, if_false, steps_anchor r.anchor hr]
  have hwalk := (locate_eq_ok_iff.1 hp.leads).2.2.walk_eq
  have hwalk' := (locate_eq_ok_iff.1 hq.leads).2.2.walk_eq
  rw [startOf_root, hsteps p hp.names_ne, hparts] at hwalk
  rw [startOf_root, hsteps q hq.names_ne, hwalk] at hwalk'
  exact Except.ok.inj hwalk'

/-- What a walk leads to afterwards tells what it led to before, if that is not a new file. -/
theorem eq_of_moved_eq {spot s s' : Spot} (hs : fs.Known s) (h : fs.moved spot s' = s) : s' = s := by
  by_cases hspot : s' = spot
  · subst hspot
    rw [moved_self] at h
    subst h
    exact Classical.byContradiction fun hne => ne_nodeAt (hs _ rfl) hne rfl
  · rw [moved_of_ne hspot] at h
    exact h

theorem moved_inj {spot s s' : Spot} (hs : fs.Known s) (hs' : fs.Known s') :
    fs.moved spot s' = fs.moved spot s ↔ s' = s := by
  refine ⟨fun h => ?_, fun h => by rw [h]⟩
  by_cases hspot : s = spot
  · by_cases hspot' : s' = spot
    · rw [hspot, hspot']
    · rw [moved_of_ne hspot'] at h
      exact (eq_of_moved_eq hs' h.symm).symm
  · rw [moved_of_ne hspot] at h
    exact eq_of_moved_eq hs h

/-- A path that can be written to still can be after something was written. -/
theorem Wrote.target {spot s : Spot} {content old : Bytes} {path : String} (h : Wrote fs spot content fs')
    (hlinked : fs.Linked) (hspot : fs.Writable spot) (htarget : fs.Target path s old) :
    fs'.Target path (fs.moved spot s) (if s = spot then content else old) where
  no_nul := htarget.no_nul
  leads := h.locate hspot htarget.leads
  held := by
    split
    · rename_i hs
      subst hs
      exact h.held_self
    · rename_i hs
      rw [h.held_of_ne (htarget.writable hlinked).there hs]
      exact htarget.held

/-! ## What is left alone -/

/-- Nothing is different but at some spots. -/
structure Spares (P : Spot → Prop) (fs fs' : FileSystem) : Prop where
  /-- What was there is as it was, apart from the names in directories. -/
  nodes : ∀ i, (fs.node? i).isSome = true → ¬ P (.found i) →
    (fs'.node? i).map Node.bare = (fs.node? i).map Node.bare
  names : ∀ d name, ¬ P (.missing d name) → fs'.entry? d name = fs.entry? d name
  paths : ∀ path how s, fs.locate root path how = .ok s → ¬ P s → fs'.locate root path how = .ok s

theorem Spares.refl (P : Spot → Prop) (fs : FileSystem) : Spares P fs fs :=
  ⟨fun _ _ _ => rfl, fun _ _ _ => rfl, fun _ _ _ h _ => h⟩

theorem Wrote.spares {spot : Spot} {content : Bytes} (h : Wrote fs spot content fs') (hspot : fs.Writable spot) :
    Spares (· = spot) fs fs' where
  nodes i hi hne := h.others i (ne_nodeAt hi (Ne.symm hne))
  names d name hne := by rw [h.names, if_neg (Ne.symm hne)]
  paths path how s hlocate hne := by
    rw [h.locate hspot hlocate, moved_of_ne hne]

/-- Changes at some spots and then at others. Spots are those of the file system before. -/
theorem Spares.trans {P P' Q : Spot → Prop} (hlinked : fs.Linked) (h : Spares P fs fs') (h' : Spares P' fs' fs'')
    (hP : ∀ s, P s → Q s) (hP' : ∀ s, fs.Known s → P' s → Q s) : Spares Q fs fs'' where
  nodes i hi hnot := by
    have hbare := h.nodes i hi fun hi => hnot (hP _ hi)
    have hi' : (fs'.node? i).isSome = true := by simpa [hi] using congrArg Option.isSome hbare
    have hknown : fs.Known (.found i) := fun j hj => by
      cases hj
      exact hi
    rw [h'.nodes i hi' fun hi => hnot (hP' _ hknown hi), hbare]
  names d name hnot := by
    have hknown : fs.Known (.missing d name) := nofun
    rw [h'.names d name fun hd => hnot (hP' _ hknown hd), h.names d name fun hd => hnot (hP _ hd)]
  paths path how s hlocate hnot := by
    have hmiddle := h.paths path how s hlocate fun hs => hnot (hP s hs)
    exact h'.paths path how s hmiddle fun hs => hnot (hP' s (there_of_locate hlinked hlocate).known hs)

/-- What is read by a path that leads elsewhere is the same. -/
theorem Spares.fetch {P : Spot → Prop} (h : Spares P fs fs') (hlinked : fs.Linked) {path : String} {s : Spot}
    (hlocate : fs.locate root path { followLast := true } = .ok s) (hnot : ¬ P s) :
    fs'.fetch root path = fs.fetch root path := by
  simp only [FileSystem.fetch, find, hlocate, h.paths path _ s hlocate hnot]
  cases s with
  | missing d name => rfl
  | found i =>
    have hthere : (fs.node? i).isSome = true := there_of_locate hlinked hlocate
    obtain ⟨n, hn⟩ := Option.isSome_iff_exists.1 hthere
    have hbare := h.nodes i hthere hnot
    rw [hn] at hbare
    obtain ⟨n', hn', heq⟩ := Option.map_eq_some_iff.1 hbare
    simp only [hn, hn']
    cases n <;> cases n' <;> cases heq <;> rfl

end FileSystem

end Conch
