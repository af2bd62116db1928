-- SUMMARY: The grammar of a stage: which words are read as which items, and what they come to.
import Conch.Command.Parser
import Conch.Command.Printer

/-!
# Words of a stage

After its executable a stage has items, each an argument or an operator with a
file name. Reading the words of a stage is turning them back into the items that
they write, and that is possible in one way at most. What the items come to, the
arguments and the redirections, is then a matter of folding over them.
-/

namespace Conch

/-! ## Operators -/

namespace Operator

theorem text_ne_empty (op : Operator) : op.text ≠ "" := by
  cases op with
  | input => decide
  | output => decide
  | append => decide
  | errors => decide

@[simp] theorem ofText?_text (op : Operator) : ofText? op.text = some op := by
  cases op with
  | input => decide
  | output => decide
  | append => decide
  | errors => decide

/-- A word is read as an operator exactly if the operator is written so. -/
theorem ofText?_eq_some_iff {word : String} {op : Operator} :
    ofText? word = some op ↔ word = op.text := by
  constructor
  · intro h
    unfold ofText? at h
    split at h
    · cases h; assumption
    split at h
    · cases h; assumption
    split at h
    · cases h; assumption
    split at h
    · cases h; assumption
    cases h
  · rintro rfl
    exact ofText?_text op

end Operator

/-! ## Items -/

namespace Item

/-- The words that an item is written with. -/
def words : Item → List String
  | arg word => [word]
  | redirect op file => [op.text, file]

/-- An item that reading can give: an argument is no operator, and a file has a name. -/
def Readable : Item → Prop
  | arg word => Operator.ofText? word = none
  | redirect _ file => IsWord file

end Item

/-- The words that some items are written with. -/
def itemWords (found : List Item) : List String :=
  found.flatMap Item.words

@[simp] theorem itemWords_nil : itemWords [] = [] := rfl

@[simp] theorem itemWords_cons (item : Item) (found : List Item) :
    itemWords (item :: found) = item.words ++ itemWords found := rfl

/-- Items that can be read are read back from the words that they are written with. -/
theorem items_itemWords {found : List Item} (h : ∀ item ∈ found, item.Readable) :
    items (itemWords found) = .ok found := by
  induction found with
  | nil => rfl
  | cons item found ih =>
    rw [List.forall_mem_cons] at h
    cases item with
    | arg word =>
      have hword : Operator.ofText? word = none := h.1
      simp [Item.words, items, hword, ih h.2, Except.map]
    | redirect op file =>
      have hfile : file ≠ "" := h.1
      simp [Item.words, items, hfile, ih h.2, Except.map]

/-- What is read from words can be read, and is written with these words. -/
theorem readable_of_items {ws : List String} {found : List Item} (h : items ws = .ok found) :
    ws = itemWords found ∧ ∀ item ∈ found, item.Readable := by
  fun_induction items ws generalizing found with
  | case1 =>
    cases h
    exact ⟨rfl, fun _ hmem => absurd hmem List.not_mem_nil⟩
  | case2 word rest hword ih =>
    cases hrest : items rest with
    | error e => rw [hrest] at h; cases h
    | ok found' =>
      rw [hrest] at h
      cases h
      obtain ⟨hwords, hread⟩ := ih hrest
      exact ⟨by rw [itemWords_cons, ← hwords]; rfl, List.forall_mem_cons.2 ⟨hword, hread⟩⟩
  | case3 word op hop => cases h
  | case4 word op hop rest => cases h
  | case5 word op hop file rest hfile ih =>
    cases hrest : items rest with
    | error e => rw [hrest] at h; cases h
    | ok found' =>
      rw [hrest] at h
      cases h
      obtain ⟨hwords, hread⟩ := ih hrest
      obtain rfl := Operator.ofText?_eq_some_iff.1 hop
      exact ⟨by rw [itemWords_cons, ← hwords]; rfl, List.forall_mem_cons.2 ⟨hfile, hread⟩⟩

/-- Words are read as certain items exactly if these can be read and are written so. -/
theorem items_eq_ok_iff {ws : List String} {found : List Item} :
    items ws = .ok found ↔ ws = itemWords found ∧ ∀ item ∈ found, item.Readable := by
  constructor
  · exact readable_of_items
  · rintro ⟨rfl, hread⟩
    exact items_itemWords hread

/-! ## What items come to -/

@[simp] theorem argsOf_arg_cons (word : String) (found : List Item) :
    argsOf (.arg word :: found) = word :: argsOf found := rfl

/-- An argument of a stage is a word of it and no operator. -/
theorem mem_itemWords_of_mem_argsOf {found : List Item} {word : String}
    (hread : ∀ item ∈ found, item.Readable) (h : word ∈ argsOf found) :
    word ∈ itemWords found ∧ Operator.ofText? word = none := by
  induction found with
  | nil => cases h
  | cons item found ih =>
    rw [List.forall_mem_cons] at hread
    rw [itemWords_cons, List.mem_append]
    cases item with
    | arg word' =>
      rw [argsOf_arg_cons, List.mem_cons] at h
      rcases h with rfl | h
      · exact ⟨.inl (List.mem_singleton_self word), hread.1⟩
      · obtain ⟨hmem, hop⟩ := ih hread.2 h
        exact ⟨.inr hmem, hop⟩
    | redirect op file =>
      obtain ⟨hmem, hop⟩ := ih hread.2 h
      exact ⟨.inr hmem, hop⟩

/-- What one more item makes of the redirections so far. -/
def redirectStep (acc : Option Redirects) : Item → Option Redirects
  | .arg _ => acc
  | .redirect op file => some ((acc.getD {}).bindTo op file)

theorem redirectsOf_eq_foldl (found : List Item) : redirectsOf found = found.foldl redirectStep none :=
  rfl

/-- Binding a stream to a named file keeps redirections canonical, and makes them so if there were
    none before. -/
theorem Redirects.bindTo_isCanonical {r : Redirects} (hr : r = {} ∨ r.IsCanonical) (op : Operator)
    {file : String} (hfile : IsWord file) : (r.bindTo op file).IsCanonical := by
  have hstdin : ∀ f ∈ r.stdin, IsWord f := by
    rcases hr with rfl | h
    · exact fun _ hmem => absurd hmem (Option.not_mem_none _)
    · exact h.stdin_word
  have hstdout : ∀ f ∈ r.stdout, IsWord f := by
    rcases hr with rfl | h
    · exact fun _ hmem => absurd hmem (Option.not_mem_none _)
    · exact h.stdout_word
  have hstderr : ∀ f ∈ r.stderr, IsWord f := by
    rcases hr with rfl | h
    · exact fun _ hmem => absurd hmem (Option.not_mem_none _)
    · exact h.stderr_word
  have happend : r.append = true → r.stdout.isSome := by
    rcases hr with rfl | h
    · exact fun h => absurd h Bool.false_ne_true
    · exact h.append_output
  have hnew : ∀ f ∈ some file, IsWord f := by
    rintro f ⟨⟩
    exact hfile
  cases op with
  | input => exact ⟨.inl rfl, hnew, hstdout, hstderr, happend⟩
  | output => exact ⟨.inr (.inl rfl), hstdin, hnew, hstderr, fun _ => rfl⟩
  | append => exact ⟨.inr (.inl rfl), hstdin, hnew, hstderr, fun _ => rfl⟩
  | errors => exact ⟨.inr (.inr rfl), hstdin, hstdout, hnew, happend⟩

/-- Redirections among items that can be read are canonical. The induction goes over the items with
    the redirections so far, which are none or canonical. -/
theorem redirectsOf_isCanonical {found : List Item} (hread : ∀ item ∈ found, item.Readable) :
    ∀ r ∈ redirectsOf found, r.IsCanonical := by
  have hfold : ∀ acc : Option Redirects, (∀ r ∈ acc, r.IsCanonical) →
      ∀ r ∈ found.foldl redirectStep acc, r.IsCanonical := by
    induction found with
    | nil => exact fun acc hacc => hacc
    | cons item found ih =>
      rw [List.forall_mem_cons] at hread
      intro acc hacc
      refine ih hread.2 (redirectStep acc item) ?_
      cases item with
      | arg word => exact hacc
      | redirect op file =>
        rintro r ⟨⟩
        refine Redirects.bindTo_isCanonical ?_ op hread.1
        cases acc with
        | none => exact .inl rfl
        | some r => exact .inr (hacc r rfl)
  rw [redirectsOf_eq_foldl]
  exact hfold none fun _ hmem => absurd hmem (Option.not_mem_none _)

/-! ## Stages -/

/-- A stage is made of its parts whenever its executable is a proper name. -/
theorem Stage.make_eq_ok (s : Stage) : Stage.make s.executable s.args s.redirects = .ok s := by
  unfold Stage.make
  rw [dif_neg s.executable_ok.1]
  split
  · rename_i op hop
    rw [s.executable_ok.2] at hop
    cases hop
  · rfl

theorem Stage.eq_of_make {executable : String} {args : List String} {redirects : Option Redirects}
    {s : Stage} (h : Stage.make executable args redirects = .ok s) :
    s.executable = executable ∧ s.args = args ∧ s.redirects = redirects := by
  unfold Stage.make at h
  split at h
  · cases h
  split at h
  · cases h
  · cases h
    exact ⟨rfl, rfl, rfl⟩

/-- A stage is read from words exactly if these are its executable and items that come to its
    arguments and redirections. -/
theorem parseStage_eq_ok_iff {ws : List String} {s : Stage} :
    parseStage ws = .ok s ↔
      ∃ found, ws = s.executable :: itemWords found ∧ (∀ item ∈ found, item.Readable) ∧
        s.args = argsOf found ∧ s.redirects = redirectsOf found := by
  constructor
  · intro h
    cases ws with
    | nil => cases h
    | cons executable rest =>
      rw [parseStage] at h
      split at h
      · cases h
      split at h
      · cases h
      rename_i found hfound
      cases hmake : Stage.make executable (argsOf found) (redirectsOf found) with
      | error e => rw [hmake] at h; cases h
      | ok s' =>
        rw [hmake] at h
        cases h
        obtain ⟨rfl, hargs, hredirects⟩ := Stage.eq_of_make hmake
        obtain ⟨rfl, hread⟩ := items_eq_ok_iff.1 hfound
        exact ⟨found, rfl, hread, hargs, hredirects⟩
  · rintro ⟨found, rfl, hread, hargs, hredirects⟩
    have hmake := s.make_eq_ok
    rw [hargs, hredirects] at hmake
    simp only [parseStage, s.executable_ok.2, items_itemWords hread, hmake]
    rfl

/-- A stage that is read from words that are not empty is canonical. -/
theorem parseStage_isCanonical {ws : List String} {s : Stage} (h : parseStage ws = .ok s)
    (hempty : "" ∉ ws) : s.IsCanonical := by
  obtain ⟨found, rfl, hread, hargs, hredirects⟩ := parseStage_eq_ok_iff.1 h
  refine ⟨?_, ?_⟩
  · intro arg harg
    rw [hargs] at harg
    obtain ⟨hmem, hop⟩ := mem_itemWords_of_mem_argsOf hread harg
    refine ⟨?_, hop⟩
    rintro rfl
    exact hempty (List.mem_cons_of_mem _ hmem)
  · rw [hredirects]
    exact redirectsOf_isCanonical hread

end Conch
