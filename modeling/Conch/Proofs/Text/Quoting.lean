-- SUMMARY: A quoted text, and a list of quoted texts, stands on one line and shows where it ends.
import Mathlib.Algebra.Group.Nat.Defs
import Conch.Text.Quoted
import Conch.Proofs.Text.Delimiting

/-!
# Quoted texts

Each character inside a quoted text can be read back from the front of what is left, and
none of them looks like the quote mark. So a quoted text ends where its mark comes again,
whatever it holds, and a list of quoted texts ends at its bracket. Neither of them holds a
line end.
-/

namespace Conch

/-! ## Hexadecimal digits -/

/-- The value of a lowercase hexadecimal digit. -/
def hexDigitValue (c : Char) : Nat :=
  if c.isDigit then c.toNat - 48 else c.toNat - 87

/-- The number that hexadecimal digits write. -/
def hexValue (cs : List Char) : Nat :=
  cs.foldl (fun n c => 16 * n + hexDigitValue c) 0

theorem hexDigitValue_digitChar : ∀ d < 16, hexDigitValue (Nat.digitChar d) = d := by decide

theorem hexValue_append_singleton (cs : List Char) (c : Char) :
    hexValue (cs ++ [c]) = 16 * hexValue cs + hexDigitValue c := by
  simp [hexValue, List.foldl_append]

theorem hexValue_toDigits (n : Nat) : hexValue (Nat.toDigits 16 n) = n := by
  induction n using Nat.strongRecOn with
  | ind n ih =>
    rw [Nat.toDigits_eq_if (by decide)]
    split
    · rename_i hlt
      simpa [hexValue] using hexDigitValue_digitChar n hlt
    · rename_i hge
      rw [hexValue_append_singleton, ih (n / 16) (by omega), hexDigitValue_digitChar _ (Nat.mod_lt _ (by decide))]
      exact Nat.div_add_mod n 16

theorem hexValue_zeros (zeros : Nat) (cs : List Char) : hexValue (List.replicate zeros '0' ++ cs) = hexValue cs := by
  induction zeros with
  | zero => rfl
  | succ zeros ih =>
    rw [List.replicate_succ, List.cons_append, ← ih]
    rfl

theorem hexValue_hexDigits (width n : Nat) : hexValue (hexDigits width n) = n := by
  rw [hexDigits, hexValue_zeros, hexValue_toDigits]

/-- A number that fits into the width takes all of it. -/
theorem length_hexDigits {width n : Nat} (hwidth : 0 < width) (h : n < 16 ^ width) :
    (hexDigits width n).length = width := by
  have hle : (Nat.toDigits 16 n).length ≤ width := (Nat.length_toDigits_le_iff (by decide) hwidth).2 h
  rw [hexDigits, List.length_append, List.length_replicate]
  omega

theorem exists_digitChar_of_mem_toDigits {n : Nat} {c : Char} (h : c ∈ Nat.toDigits 16 n) :
    ∃ d < 16, c = Nat.digitChar d := by
  induction n using Nat.strongRecOn with
  | ind n ih =>
    rw [Nat.toDigits_eq_if (by decide)] at h
    split at h
    · rename_i hlt
      exact ⟨n, hlt, List.mem_singleton.1 h⟩
    · rename_i hge
      rcases List.mem_append.1 h with hinit | hlast
      · exact ih (n / 16) (by omega) hinit
      · exact ⟨n % 16, Nat.mod_lt _ (by decide), List.mem_singleton.1 hlast⟩

theorem newline_notMem_hexDigits (width n : Nat) : '\n' ∉ hexDigits width n := by
  intro h
  rcases List.mem_append.1 h with hzero | hdigit
  · exact absurd (List.eq_of_mem_replicate hzero) (by decide)
  · obtain ⟨d, -, hd⟩ := exists_digitChar_of_mem_toDigits hdigit
    exact Nat.digitChar_ne '\n' (by decide) hd.symm

/-! ## One character -/

/-- The kinds of escapes with a code, and how many digits each of them has. -/
def codeWidths : List (Char × Nat) := [('x', 2), ('u', 4), ('U', 8)]

/-- The ways in which a character stands between quote marks. -/
inductive WrittenAs (mark : Char) : Char → List Char → Prop
  | plain {c : Char} (hmark : c ≠ mark) (hbackslash : c ≠ '\\') (hnewline : c ≠ '\n') : WrittenAs mark c [c]
  | escaped {c : Char} (h : c = mark ∨ c = '\\') : WrittenAs mark c ['\\', c]
  | tab : WrittenAs mark '\t' ['\\', 't']
  | newline : WrittenAs mark '\n' ['\\', 'n']
  | return : WrittenAs mark '\r' ['\\', 'r']
  | code {c kind : Char} {width : Nat} (hwidth : (kind, width) ∈ codeWidths) (hfits : c.toNat < 16 ^ width) :
    WrittenAs mark c ('\\' :: kind :: hexDigits width c.toNat)

theorem quoteChar_writtenAs (mark c : Char) : WrittenAs mark c (quoteChar mark c) := by
  have hvalid : c.toNat < 16 ^ 8 := c.val.toNat_lt
  unfold quoteChar
  split
  · rename_i h
    exact .escaped (by simpa using h)
  rename_i hquiet
  split
  · rename_i h
    obtain rfl := eq_of_beq h
    exact .tab
  split
  · rename_i h
    obtain rfl := eq_of_beq h
    exact .newline
  rename_i hnewline
  split
  · rename_i h
    obtain rfl := eq_of_beq h
    exact .return
  split
  · simp only [Bool.or_eq_true, beq_iff_eq, not_or] at hquiet hnewline
    exact .plain hquiet.1 hquiet.2 hnewline
  split
  · rename_i h
    exact .code (by decide) h
  split
  · rename_i h
    exact .code (by decide) h
  · exact .code (by decide) hvalid

/-- A quote mark: there are two of them. -/
def IsMark (mark : Char) : Prop := mark = '\'' ∨ mark = '"'

section Character

variable {mark c : Char} {cs : List Char}

/-- A mark only stands for itself behind a backslash. -/
theorem WrittenAs.append_ne_mark (h : WrittenAs mark c cs) (hmark : IsMark mark) (x y : List Char) :
    cs ++ x ≠ mark :: y := by
  have hescape : '\\' ≠ mark := by rcases hmark with rfl | rfl <;> decide
  intro hbegins
  cases h with
  | plain hne => exact hne (List.cons.inj hbegins).1
  | _ => exact hescape (List.cons.inj hbegins).1

theorem WrittenAs.newline_notMem (h : WrittenAs mark c cs) (hmark : IsMark mark) : '\n' ∉ cs := by
  cases h with
  | plain _ _ hnewline => simpa using hnewline.symm
  | escaped h =>
    rcases h with rfl | rfl
    · rcases hmark with rfl | rfl <;> decide
    · decide
  | code hwidth =>
    simp only [codeWidths, List.mem_cons, Prod.mk.injEq, List.not_mem_nil, or_false] at hwidth
    simp only [List.mem_cons, newline_notMem_hexDigits, or_false]
    rcases hwidth with ⟨rfl, -⟩ | ⟨rfl, -⟩ | ⟨rfl, -⟩ <;> decide
  | _ => decide

/-! ## Reading it back -/

/-- Read a character that is written by its code, and leave the rest. -/
def readCode (width : Nat) (cs : List Char) : Char × List Char :=
  (Char.ofNat (hexValue (cs.take width)), cs.drop width)

/-- Read the first character of what stands between quote marks, and leave the rest. -/
def readQuoted : List Char → Option (Char × List Char)
  | [] => none
  | '\\' :: kind :: rest =>
    if kind = 't' then some ('\t', rest)
    else if kind = 'n' then some ('\n', rest)
    else if kind = 'r' then some ('\r', rest)
    else
      match codeWidths.lookup kind with
      | some width => some (readCode width rest)
      | none => some (kind, rest)
  | c :: rest => some (c, rest)

theorem readCode_hexDigits {width : Nat} (hwidth : 0 < width) (h : c.toNat < 16 ^ width) (rest : List Char) :
    readCode width (hexDigits width c.toNat ++ rest) = (c, rest) := by
  have hlength := length_hexDigits hwidth h
  rw [readCode, List.take_left' hlength, List.drop_left' hlength, hexValue_hexDigits, Char.ofNat_toNat]

theorem WrittenAs.read (h : WrittenAs mark c cs) (hmark : IsMark mark) (rest : List Char) :
    readQuoted (cs ++ rest) = some (c, rest) := by
  cases h with
  | plain _ hbackslash =>
    rw [List.singleton_append, readQuoted]
    rintro kind rest rfl
    exact absurd rfl hbackslash
  | escaped h =>
    rcases h with rfl | rfl
    · rcases hmark with rfl | rfl <;> rfl
    · rfl
  | code hwidth hfits =>
    simp only [codeWidths, List.mem_cons, Prod.mk.injEq, List.not_mem_nil, or_false] at hwidth
    rcases hwidth with ⟨rfl, rfl⟩ | ⟨rfl, rfl⟩ | ⟨rfl, rfl⟩ <;>
      exact congrArg some (readCode_hexDigits (by decide) hfits rest)
  | _ => rfl

theorem quoteChar_selfDelimiting (hmark : IsMark mark) : SelfDelimiting (quoteChar mark) :=
  .of_read fun c rest => (quoteChar_writtenAs mark c).read hmark rest

end Character

/-! ## Texts and lists -/

theorem isMark_quoteMark (cs : List Char) : IsMark (quoteMark cs) := by
  unfold quoteMark
  split
  · exact .inr rfl
  · exact .inl rfl

/-- A quoted text ends where its mark comes again. -/
theorem quoteChars_selfDelimiting : SelfDelimiting quoteChars := by
  intro s t x y h
  obtain ⟨hmark, hrest⟩ := List.cons.inj h
  have hrow : SelfDelimiting fun cs : List Char => cs.flatMap (quoteChar (quoteMark s)) ++ [quoteMark s] :=
    (quoteChar_selfDelimiting (isMark_quoteMark s)).flatMap fun c x y =>
      (quoteChar_writtenAs (quoteMark s) c).append_ne_mark (isMark_quoteMark s) x y
  rw [← hmark] at hrest
  exact hrow hrest

theorem newline_notMem_quoteChars (cs : List Char) : '\n' ∉ quoteChars cs := by
  have hmark := isMark_quoteMark cs
  have hne : '\n' ≠ quoteMark cs := by rcases hmark with h | h <;> simp [h]
  have hrow : '\n' ∉ cs.flatMap (quoteChar (quoteMark cs)) := by
    simp only [List.mem_flatMap, not_exists, not_and]
    exact fun c _ => (quoteChar_writtenAs _ c).newline_notMem hmark
  simp [quoteChars, hne, hrow]

theorem toList_quotedList (texts : List String) :
    (quotedList texts).toList = '[' :: ([',', ' '].intercalate (texts.map fun t => quoteChars t.toList) ++ [']']) := by
  simp [quotedList, quoted, String.toList_append, String.toList_intercalate, Function.comp_def]

/-- A list of quoted texts ends at its bracket. -/
theorem quotedList_selfDelimiting : SelfDelimiting fun texts => (quotedList texts).toList := by
  have htext : SelfDelimiting fun t : String => quoteChars t.toList :=
    quoteChars_selfDelimiting.comp fun _ _ => String.toList_inj.1
  have hmark : ∀ (t : String) (x y : List Char), quoteChars t.toList ++ x ≠ ']' :: y := by
    intro t x y h
    have hbracket : quoteMark t.toList = ']' := (List.cons.inj h).1
    rcases isMark_quoteMark t.toList with hquote | hquote
    · exact absurd (hquote.symm.trans hbracket) (by decide)
    · exact absurd (hquote.symm.trans hbracket) (by decide)
  have hcomma : ∀ x y : List Char, [',', ' '] ++ x ≠ ']' :: y := fun x y h => absurd (List.cons.inj h).1 (by decide)
  simpa only [toList_quotedList] using htext.bracketed hmark hcomma

theorem quotedList_injective : Function.Injective quotedList :=
  fun _ _ h => quotedList_selfDelimiting.injective (congrArg String.toList h)

theorem newline_notMem_quotedList (texts : List String) : '\n' ∉ (quotedList texts).toList := by
  have hrow : '\n' ∉ [',', ' '].intercalate (texts.map fun t => quoteChars t.toList) := by
    cases texts with
    | nil => exact List.not_mem_nil
    | cons t texts =>
      simp [intercalate_cons_eq_flatMap, newline_notMem_quoteChars]
  simp [toList_quotedList, hrow]

end Conch
