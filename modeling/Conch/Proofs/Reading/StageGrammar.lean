-- SUMMARY: Words inside and outside the grammar of a stage: one way to read them, the last redirection of each stream, and the fault that decides.
import Mathlib.Data.List.Induction
import Conch.Proofs.Reading.Stages

/-!
# The grammar of stages

Words are a stage if they are an executable followed by items. There is at most
one way to see them so. A stream that is redirected several times is bound by the
last redirection of it, and `>` and `>>` are two ways to redirect one stream; so
the order in which redirections of different streams and arguments are mixed
means nothing.

Words that are no stage have one fault that decides. An operator in the place of
the executable comes first, then the leftmost operator without a file name behind
it, and only when all items are in order it counts that the executable is empty.
-/

namespace Conch

/-! ## Streams -/

/-- The streams that a stage can redirect. -/
inductive Stream where
  | stdin
  | stdout
  | stderr
  deriving DecidableEq, Repr

/-- The stream that an operator redirects. -/
def Operator.stream : Operator → Stream
  | input => .stdin
  | output => .stdout
  | append => .stdout
  | errors => .stderr

/-! ## The last redirection counts -/

/-- The redirections of one stream among some items, in order. -/
def bindingsOf (stream : Stream) (found : List Item) : List (Operator × String) :=
  found.filterMap fun
    | .arg _ => none
    | .redirect op file => if op.stream = stream then some (op, file) else none

theorem bindingsOf_append (stream : Stream) (found more : List Item) :
    bindingsOf stream (found ++ more) = bindingsOf stream found ++ bindingsOf stream more :=
  List.filterMap_append

/-- The file that some redirections of one stream bind it to: that of the last. -/
def lastFile (bindings : List (Operator × String)) : Option String :=
  bindings.getLast?.map (·.2)

/-- Whether some redirections of one stream keep what the file holds: whether the last does. -/
def lastAppends (bindings : List (Operator × String)) : Bool :=
  bindings.getLast?.map (·.1) = some .append

/-- The redirections in which the last one of each stream counts. -/
def lastRedirects (found : List Item) : Redirects where
  stdin := lastFile (bindingsOf .stdin found)
  stdout := lastFile (bindingsOf .stdout found)
  stderr := lastFile (bindingsOf .stderr found)
  append := lastAppends (bindingsOf .stdout found)

/-- One more redirection binds its own stream and leaves the others alone. -/
theorem lastRedirects_snoc_redirect (found : List Item) (op : Operator) (file : String) :
    lastRedirects (found ++ [.redirect op file]) = (lastRedirects found).bindTo op file := by
  cases op with
  | input => simp [lastRedirects, Redirects.bindTo, bindingsOf, Operator.stream, lastFile]
  | output => simp [lastRedirects, Redirects.bindTo, bindingsOf, Operator.stream, lastFile, lastAppends]
  | append => simp [lastRedirects, Redirects.bindTo, bindingsOf, Operator.stream, lastFile, lastAppends]
  | errors => simp [lastRedirects, Redirects.bindTo, bindingsOf, Operator.stream, lastFile]

theorem lastRedirects_snoc_arg (found : List Item) (word : String) :
    lastRedirects (found ++ [.arg word]) = lastRedirects found := by
  have hnone : ∀ stream, bindingsOf stream [.arg word] = [] := fun _ => rfl
  simp only [lastRedirects, bindingsOf_append, hnone, List.append_nil]

theorem redirectsOf_snoc (found : List Item) (item : Item) :
    redirectsOf (found ++ [item]) = redirectStep (redirectsOf found) item := by
  rw [redirectsOf_eq_foldl, redirectsOf_eq_foldl, List.foldl_append]
  rfl

/-- The redirections of items are those in which the last one of each stream counts. The induction takes
    items away from the end, where the last redirections are. -/
theorem redirectsOf_getD (found : List Item) : (redirectsOf found).getD {} = lastRedirects found := by
  induction found using List.reverseRecOn with
  | nil => rfl
  | append_singleton found item ih =>
    rw [redirectsOf_snoc]
    cases item with
    | arg word => rw [lastRedirects_snoc_arg, ← ih, redirectStep]
    | redirect op file => rw [lastRedirects_snoc_redirect, ← ih, redirectStep, Option.getD_some]

/-- There are redirections exactly if some item redirects. -/
theorem isSome_redirectsOf_iff (found : List Item) :
    (redirectsOf found).isSome ↔ ∃ op file, .redirect op file ∈ found := by
  induction found using List.reverseRecOn with
  | nil => simp [redirectsOf]
  | append_singleton found item ih =>
    rw [redirectsOf_snoc]
    cases item with
    | arg word => simpa [redirectStep] using ih
    | redirect op file => exact ⟨fun _ => ⟨op, file, by simp⟩, fun _ => rfl⟩

theorem exists_redirect_iff (found : List Item) :
    (∃ op file, .redirect op file ∈ found) ↔ ∃ stream, bindingsOf stream found ≠ [] := by
  constructor
  · rintro ⟨op, file, hmem⟩
    exact ⟨op.stream, List.ne_nil_of_mem (List.mem_filterMap.2 ⟨_, hmem, if_pos rfl⟩)⟩
  · rintro ⟨stream, hne⟩
    obtain ⟨binding, hmem⟩ := List.exists_mem_of_ne_nil _ hne
    obtain ⟨item, hitem, hbinding⟩ := List.mem_filterMap.1 hmem
    cases item with
    | arg word => cases hbinding
    | redirect op file => exact ⟨op, file, hitem⟩

/-- Redirections are the same if those of each stream are, in whatever order the streams are mixed. -/
theorem redirectsOf_congr {found other : List Item}
    (h : ∀ stream, bindingsOf stream found = bindingsOf stream other) : redirectsOf found = redirectsOf other := by
  have hlast : lastRedirects found = lastRedirects other := by simp only [lastRedirects, h]
  have hsome : (redirectsOf found).isSome ↔ (redirectsOf other).isSome := by
    rw [isSome_redirectsOf_iff, isSome_redirectsOf_iff, exists_redirect_iff, exists_redirect_iff]
    simp only [h]
  rw [← redirectsOf_getD, ← redirectsOf_getD] at hlast
  cases hfound : redirectsOf found with
  | none => simp_all
  | some r =>
    obtain ⟨r', hother⟩ := Option.isSome_iff_exists.1 (hsome.1 (by rw [hfound]; rfl))
    rw [hfound, hother] at hlast
    rw [hother]
    exact congrArg some hlast

/-! ## The files of a stage -/

namespace Stage

variable (s : Stage)

theorem stdin?_eq : s.stdin? = (s.redirects.getD {}).stdin := by
  cases h : s.redirects <;> simp [stdin?, h]

theorem stdout?_eq : s.stdout? = (s.redirects.getD {}).stdout := by
  cases h : s.redirects <;> simp [stdout?, h]

theorem stderr?_eq : s.stderr? = (s.redirects.getD {}).stderr := by
  cases h : s.redirects <;> simp [stderr?, h]

theorem appends_eq : s.appends = (s.redirects.getD {}).append := by
  cases h : s.redirects <;> simp [appends, h]

end Stage

/-! ## Words of the grammar -/

/-- Words are an executable followed by items. -/
structure StageWords (ws : List String) (executable : String) (found : List Item) : Prop where
  words : ws = executable :: itemWords found
  executable_ok : IsExecutableName executable
  readable : ∀ item ∈ found, item.Readable

theorem StageWords.parseStage_eq {ws : List String} {executable : String} {found : List Item}
    (h : StageWords ws executable found) :
    parseStage ws = .ok ⟨executable, argsOf found, redirectsOf found, h.executable_ok⟩ :=
  parseStage_eq_ok_iff.2 ⟨found, h.words, h.readable, rfl, rfl⟩

/-- Words are read as a stage exactly if they are an executable followed by items. -/
theorem exists_parseStage_iff {ws : List String} :
    (∃ s, parseStage ws = .ok s) ↔ ∃ executable found, StageWords ws executable found := by
  constructor
  · rintro ⟨s, hs⟩
    obtain ⟨found, hwords, hread, -, -⟩ := parseStage_eq_ok_iff.1 hs
    exact ⟨s.executable, found, hwords, s.executable_ok, hread⟩
  · rintro ⟨executable, found, h⟩
    exact ⟨_, h.parseStage_eq⟩

/-- There is one way at most to see words as an executable followed by items. -/
theorem StageWords.unique {ws : List String} {executable executable' : String} {found found' : List Item}
    (h : StageWords ws executable found) (h' : StageWords ws executable' found') :
    executable = executable' ∧ found = found' := by
  have hwords := h'.words
  rw [h.words, List.cons.injEq] at hwords
  obtain ⟨hname, hitems⟩ := hwords
  have hread := items_itemWords h.readable
  rw [hitems, items_itemWords h'.readable] at hread
  exact ⟨hname, (Except.ok.inj hread).symm⟩

/-! ## Words outside the grammar -/

/-- Words that are no items, with the fault of the leftmost operator that no file name follows. -/
inductive ItemFault : List String → BuildError → Prop where
  | dangling {found : List Item} (hread : ∀ item ∈ found, item.Readable) (op : Operator) :
      ItemFault (itemWords found ++ [op.text]) (.danglingRedirection op)
  | emptyTarget {found : List Item} (hread : ∀ item ∈ found, item.Readable) (op : Operator) (rest : List String) :
      ItemFault (itemWords found ++ op.text :: "" :: rest) (.emptyTarget op)

/-- One more item in front changes nothing about the fault. -/
theorem ItemFault.cons {ws : List String} {e : BuildError} (h : ItemFault ws e) (item : Item)
    (hitem : item.Readable) : ItemFault (item.words ++ ws) e := by
  cases h with
  | @dangling found hread op =>
    have hfault := ItemFault.dangling (List.forall_mem_cons.2 ⟨hitem, hread⟩) op
    rwa [itemWords_cons, List.append_assoc] at hfault
  | @emptyTarget found hread op rest =>
    have hfault := ItemFault.emptyTarget (List.forall_mem_cons.2 ⟨hitem, hread⟩) op rest
    rwa [itemWords_cons, List.append_assoc] at hfault

/-- Items that can be read are read first, whatever comes behind them. -/
theorem items_append {found : List Item} (hread : ∀ item ∈ found, item.Readable) (rest : List String) :
    items (itemWords found ++ rest) = (items rest).map (found ++ ·) := by
  induction found with
  | nil =>
    rw [itemWords_nil, List.nil_append]
    cases items rest with
    | error e => rfl
    | ok more => rfl
  | cons item found ih =>
    obtain ⟨hitem, hfound⟩ := List.forall_mem_cons.1 hread
    have hone : items (item.words ++ (itemWords found ++ rest)) =
        (items (itemWords found ++ rest)).map (item :: ·) := by
      cases item with
      | arg word =>
        have hword : Operator.ofText? word = none := hitem
        simp [Item.words, items, hword]
      | redirect op file =>
        have hfile : file ≠ "" := hitem
        simp [Item.words, items, hfile]
    rw [itemWords_cons, List.append_assoc, hone, ih hfound]
    cases items rest with
    | error e => rfl
    | ok more => rfl

theorem items_eq_error_iff {ws : List String} {e : BuildError} : items ws = .error e ↔ ItemFault ws e := by
  constructor
  · intro h
    have hnone : ∀ item ∈ ([] : List Item), item.Readable := List.forall_mem_nil _
    fun_induction items ws with
    | case1 => cases h
    | case2 word rest hword ih =>
      cases hrest : items rest with
      | error e' =>
        rw [hrest] at h
        cases h
        exact (ih hrest).cons (.arg word) hword
      | ok found => rw [hrest] at h; cases h
    | case3 word op hop =>
      cases h
      obtain rfl := Operator.ofText?_eq_some_iff.1 hop
      exact ItemFault.dangling hnone op
    | case4 word op hop rest =>
      cases h
      obtain rfl := Operator.ofText?_eq_some_iff.1 hop
      exact ItemFault.emptyTarget hnone op rest
    | case5 word op hop file rest hfile ih =>
      cases hrest : items rest with
      | error e' =>
        rw [hrest] at h
        cases h
        obtain rfl := Operator.ofText?_eq_some_iff.1 hop
        exact (ih hrest).cons (.redirect op file) hfile
      | ok found => rw [hrest] at h; cases h
  · intro h
    cases h with
    | dangling hread op => simp [items_append hread, items, Except.map]
    | emptyTarget hread op rest => simp [items_append hread, items, Except.map]

/-- Words that are no stage, with the fault that decides. -/
inductive StageFault : List String → CommandError → Prop where
  | nothing : StageFault [] (.build .emptyInput)
  | operator (op : Operator) (rest : List String) : StageFault (op.text :: rest) (.build (.invalidExecutable op))
  | items {executable : String} {rest : List String} {e : BuildError} (hname : Operator.ofText? executable = none)
      (hrest : ItemFault rest e) : StageFault (executable :: rest) (.build e)
  /-- Only when all items are in order it counts that the executable is empty. -/
  | emptyName {found : List Item} (hread : ∀ item ∈ found, item.Readable) :
      StageFault ("" :: itemWords found) (.construct .emptyExecutable)

/-- A name that is no operator is refused only if it is empty. -/
theorem Stage.make_eq_error_iff {executable : String} {args : List String} {redirects : Option Redirects}
    {e : ConstructError} (hname : Operator.ofText? executable = none) :
    Stage.make executable args redirects = .error e ↔ executable = "" ∧ e = .emptyExecutable := by
  unfold Stage.make
  split
  · rename_i hempty
    simp [hempty, eq_comm]
  · rename_i hne
    split
    · rename_i op hop
      rw [hname] at hop
      cases hop
    · simp [hne]

/-- Words are refused with the fault that decides, and with no other: an operator in the place of the executable,
    else the fault of the items, else the executable. -/
theorem parseStage_eq_error_iff {ws : List String} {e : CommandError} :
    parseStage ws = .error e ↔ StageFault ws e := by
  constructor
  · intro h
    cases ws with
    | nil => cases h; exact .nothing
    | cons executable rest =>
      cases hname : Operator.ofText? executable with
      | some op =>
        simp only [parseStage, hname] at h
        cases h
        obtain rfl := Operator.ofText?_eq_some_iff.1 hname
        exact .operator op rest
      | none =>
        cases hrest : items rest with
        | error e' =>
          simp only [parseStage, hname, hrest] at h
          cases h
          exact .items hname (items_eq_error_iff.1 hrest)
        | ok found =>
          simp only [parseStage, hname, hrest] at h
          obtain ⟨rfl, hread⟩ := items_eq_ok_iff.1 hrest
          cases hmake : Stage.make executable (argsOf found) (redirectsOf found) with
          | ok s => rw [hmake] at h; cases h
          | error e' =>
            rw [hmake] at h
            cases h
            obtain ⟨rfl, rfl⟩ := (Stage.make_eq_error_iff hname).1 hmake
            exact .emptyName hread
  · intro h
    cases h with
    | nothing => rfl
    | operator op rest => simp only [parseStage, Operator.ofText?_text]
    | items hname hrest => simp only [parseStage, hname, items_eq_error_iff.2 hrest]
    | emptyName hread =>
      have hname : Operator.ofText? "" = none := by decide
      simp only [parseStage, hname, items_itemWords hread, (Stage.make_eq_error_iff hname).2 ⟨rfl, rfl⟩]
      rfl

/-- The words of a stage are read by its grammar. They are a stage exactly if they are an executable followed by
    items, which they are in one way at most; each stream is bound by its last redirection; items may be mixed
    in any way that keeps the arguments and the redirections of each stream in order; and what is no stage has
    the fault that decides. -/
theorem parseStage_reads_items (ws : List String) :
    ((∃ s, parseStage ws = .ok s) ↔ ∃ executable found, StageWords ws executable found) ∧
    (∀ executable found executable' found', StageWords ws executable found → StageWords ws executable' found' →
      executable = executable' ∧ found = found') ∧
    (∀ executable found, StageWords ws executable found →
      ∃ s, parseStage ws = .ok s ∧ s.executable = executable ∧ s.args = argsOf found ∧
        s.stdin? = lastFile (bindingsOf .stdin found) ∧ s.stdout? = lastFile (bindingsOf .stdout found) ∧
        s.stderr? = lastFile (bindingsOf .stderr found) ∧ s.appends = lastAppends (bindingsOf .stdout found) ∧
        (s.redirects.isSome ↔ ∃ op file, .redirect op file ∈ found)) ∧
    (∀ ws' executable found found', StageWords ws executable found → StageWords ws' executable found' →
      argsOf found = argsOf found' → (∀ stream, bindingsOf stream found = bindingsOf stream found') →
      parseStage ws = parseStage ws') ∧
    ∀ e, parseStage ws = .error e ↔ StageFault ws e := by
  refine ⟨exists_parseStage_iff, fun _ _ _ _ h h' => h.unique h', ?_, ?_, fun e => parseStage_eq_error_iff⟩
  · intro executable found h
    refine ⟨_, h.parseStage_eq, rfl, rfl, ?_, ?_, ?_, ?_, isSome_redirectsOf_iff found⟩
    · rw [Stage.stdin?_eq, redirectsOf_getD]; rfl
    · rw [Stage.stdout?_eq, redirectsOf_getD]; rfl
    · rw [Stage.stderr?_eq, redirectsOf_getD]; rfl
    · rw [Stage.appends_eq, redirectsOf_getD]; rfl
  · intro ws' executable found found' h h' hargs hbindings
    rw [h.parseStage_eq, h'.parseStage_eq]
    simp only [hargs, redirectsOf_congr hbindings]

/-- Streams redirected twice, files named like operators, and the same items mixed in another way. -/
theorem parseStage_reads_items_mixed :
    ∃ s, parseStage ["sort", ">", "a", "-r", "2>", "<", ">>", ">", "<", "2>"] = .ok s ∧ s.args = ["-r"] ∧
      s.stdin? = some "2>" ∧ s.stdout? = some ">" ∧ s.stderr? = some "<" ∧ s.appends = true ∧
      parseStage ["sort", ">", "a", "-r", "2>", "<", ">>", ">", "<", "2>"] =
        parseStage ["sort", "<", "2>", ">", "a", ">>", ">", "2>", "<", "-r"] := by
  have hwords : StageWords ["sort", ">", "a", "-r", "2>", "<", ">>", ">", "<", "2>"] "sort"
      [.redirect .output "a", .arg "-r", .redirect .errors "<", .redirect .append ">", .redirect .input "2>"] :=
    ⟨rfl, by decide, by simp [Item.Readable, IsWord, Operator.ofText?]⟩
  have hmixed : StageWords ["sort", "<", "2>", ">", "a", ">>", ">", "2>", "<", "-r"] "sort"
      [.redirect .input "2>", .redirect .output "a", .redirect .append ">", .redirect .errors "<", .arg "-r"] :=
    ⟨rfl, by decide, by simp [Item.Readable, IsWord, Operator.ofText?]⟩
  obtain ⟨-, -, hmeaning, horder, -⟩ := parseStage_reads_items ["sort", ">", "a", "-r", "2>", "<", ">>", ">", "<", "2>"]
  obtain ⟨s, hs, -, hargs, hstdin, hstdout, hstderr, happends, -⟩ := hmeaning _ _ hwords
  refine ⟨s, hs, hargs, hstdin, hstdout, hstderr, happends, horder _ _ _ _ hwords hmixed rfl ?_⟩
  intro stream
  cases stream <;> rfl

-- the operator in front wins over the operator without a file, and that over the empty executable
example : parseStage [">", "2>"] = .error (.build (.invalidExecutable .output)) := by decide
example : parseStage ["", "a", "2>"] = .error (.build (.danglingRedirection .errors)) := by decide

end Conch
