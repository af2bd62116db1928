-- SUMMARY: Which texts are numerals, and the number that each of them writes.
import Mathlib.Data.List.DropRight
import Mathlib.Data.Nat.Digits.Defs
import Conch.Proofs.Text.Delimiting
import Conch.Text.Numeral

/-!
# Numerals

A numeral has its digits in groups that single underscores part. In front of them there
may be a sign, and padding around the whole. Reading a text gives a number exactly if the
text is a numeral of at most 4300 digits, and then it is the number that the digits write
in base ten.
-/

namespace Conch

/-! ## What a numeral is -/

/-- What may stand in front of the digits of a numeral. -/
inductive Sign where
  | absent
  | plus
  | minus
  deriving DecidableEq, Repr

namespace Sign

/-- How a sign is written. -/
def text : Sign → List Char
  | absent => []
  | plus => ['+']
  | minus => ['-']

/-- The number that a sign makes of one without a sign. -/
def apply : Sign → Nat → Int
  | absent, n | plus, n => n
  | minus, n => -n

end Sign

/-- Digits without anything between them, and at least one. -/
def IsDigitGroup (g : List Char) : Prop :=
  g ≠ [] ∧ ∀ c ∈ g, (digitValue? c).isSome

/-- A text that writes a whole number, in its parts. -/
structure Numeral where
  lead : List Char := []
  sign : Sign := .absent
  /-- The digits, in the groups that underscores part. -/
  groups : List (List Char)
  trail : List Char := []
  lead_padding : ∀ c ∈ lead, isPadding c = true
  groups_ne_nil : groups ≠ []
  grouped : ∀ g ∈ groups, IsDigitGroup g
  trail_padding : ∀ c ∈ trail, isPadding c = true
  length_le : groups.flatten.length ≤ 4300

namespace Numeral

/-- The text of a numeral. -/
def text (m : Numeral) : String :=
  String.ofList (m.lead ++ (m.sign.text ++ ['_'].intercalate m.groups) ++ m.trail)

/-- The values of the digits, the leading one first. -/
def digits (m : Numeral) : List Nat :=
  m.groups.flatten.filterMap digitValue?

/-- The number that a numeral writes, in base ten. -/
def value (m : Numeral) : Int :=
  m.sign.apply (Nat.ofDigits 10 m.digits.reverse)

/-- A numeral is the usual rendering of a number, possibly with more zeros in front. -/
structure Renders (m : Numeral) (n : Int) : Prop where
  digits : ∃ zeros, m.groups.flatten = List.replicate zeros '0' ++ Nat.toDigits 10 n.natAbs
  sign : m.sign = .minus ↔ n < 0

end Numeral

/-! ## Digits and what stands around them -/

theorem digitValue?_eq_some {c : Char} {d : Nat} (h : digitValue? c = some d) :
    ∃ z ∈ digitZeros, d < 10 ∧ c.toNat = z + d := by
  obtain ⟨z, hz, rfl⟩ := Option.map_eq_some_iff.1 h
  have hrange := List.find?_some hz
  simp only [Bool.and_eq_true, decide_eq_true_eq] at hrange
  exact ⟨z, List.mem_of_find?_eq_some hz, by omega, by omega⟩

/-- No digit of any script is a blank. -/
theorem isPadding_of_digit {c : Char} (h : (digitValue? c).isSome) : isPadding c = false := by
  have htable : ∀ z ∈ digitZeros, ∀ d < 10, inRanges (z + d) blankRanges = false := by decide +kernel
  obtain ⟨d, hd⟩ := Option.isSome_iff_exists.1 h
  obtain ⟨z, hz, hlt, hcode⟩ := digitValue?_eq_some hd
  simp [isPadding, isBlank, hcode, htable z hz d hlt]

theorem Sign.isPadding_eq_false {sign : Sign} {c : Char} (h : c ∈ sign.text) : isPadding c = false := by
  cases sign with
  | absent => cases h
  | plus | minus =>
    obtain rfl := List.mem_singleton.1 h
    decide

theorem length_filterMap_digits {cs : List Char} (h : ∀ c ∈ cs, (digitValue? c).isSome) :
    (cs.filterMap digitValue?).length = cs.length := by
  rw [List.length_filterMap_eq_countP, List.countP_eq_length]
  exact h

/-! ## Groups of digits -/

/-- Groups in the order they are read: the first one, and each other one behind its underscore. -/
theorem intercalate_groups (g : List Char) (gs : List (List Char)) :
    ['_'].intercalate (g :: gs) = g ++ gs.flatMap ('_' :: ·) :=
  intercalate_cons_eq_flatMap ['_'] g gs

theorem mem_intercalate {groups : List (List Char)} {c : Char} (h : c ∈ ['_'].intercalate groups) :
    c = '_' ∨ c ∈ groups.flatten := by
  cases groups with
  | nil => cases h
  | cons g gs =>
    rw [intercalate_groups, List.mem_append, List.mem_flatMap] at h
    rw [List.flatten_cons, List.mem_append]
    rcases h with hg | ⟨g', hg', hc⟩
    · exact .inr (.inl hg)
    · exact (List.mem_cons.1 hc).imp_right fun hc => .inr (List.mem_flatten_of_mem hg' hc)

theorem isSome_digitValue? {groups : List (List Char)} (h : ∀ g ∈ groups, IsDigitGroup g) :
    ∀ c ∈ groups.flatten, (digitValue? c).isSome := by
  intro c hc
  obtain ⟨g, hg, hcg⟩ := List.mem_flatten.1 hc
  exact (h g hg).2 c hcg

section MoreDigits

variable {c : Char} {d : Nat} {rest : List Char}

theorem moreDigits_digit (h : digitValue? c = some d) :
    moreDigits (c :: rest) = (moreDigits rest).map (d :: ·) := by
  rw [moreDigits, h]
  rintro c' rest' rfl
  cases h

theorem moreDigits_underscore (h : digitValue? c = some d) :
    moreDigits ('_' :: c :: rest) = (moreDigits rest).map (d :: ·) := by
  rw [moreDigits, h]

theorem moreDigits_append {g : List Char} (h : ∀ c ∈ g, (digitValue? c).isSome) (rest : List Char) :
    moreDigits (g ++ rest) = (moreDigits rest).map (g.filterMap digitValue? ++ ·) := by
  induction g with
  | nil => simp
  | cons c g ih =>
    obtain ⟨d, hd⟩ := Option.isSome_iff_exists.1 (h c List.mem_cons_self)
    rw [List.cons_append, moreDigits_digit hd, ih fun c hc => h c (List.mem_cons_of_mem _ hc), Option.map_map,
      List.filterMap_cons_some hd]
    rfl

theorem moreDigits_flatMap {gs : List (List Char)} (h : ∀ g ∈ gs, IsDigitGroup g) :
    moreDigits (gs.flatMap ('_' :: ·)) = some (gs.flatten.filterMap digitValue?) := by
  induction gs with
  | nil => rfl
  | cons g gs ih =>
    obtain ⟨hne, hdigits⟩ := h g List.mem_cons_self
    obtain ⟨c, g, rfl⟩ := List.exists_cons_of_ne_nil hne
    obtain ⟨hc, hdigits⟩ := List.forall_mem_cons.1 hdigits
    obtain ⟨d, hd⟩ := Option.isSome_iff_exists.1 hc
    rw [List.flatMap_cons, List.cons_append, List.cons_append, moreDigits_underscore hd, moreDigits_append hdigits,
      ih fun g hg => h g (List.mem_cons_of_mem _ hg)]
    simp [List.filterMap_cons_some hd]

/-- What is read behind a digit is the rest of its group and more groups. -/
theorem exists_groups_of_moreDigits {cs : List Char} {ds : List Nat} (h : moreDigits cs = some ds) :
    ∃ (g : List Char) (gs : List (List Char)), (∀ c ∈ g, (digitValue? c).isSome) ∧ (∀ g ∈ gs, IsDigitGroup g) ∧
      cs = g ++ gs.flatMap ('_' :: ·) := by
  induction cs using moreDigits.induct generalizing ds with
  | case1 => exact ⟨[], [], by simp, by simp, rfl⟩
  | case2 c rest d hd ih =>
    rw [moreDigits_underscore hd] at h
    obtain ⟨ds, hds, -⟩ := Option.map_eq_some_iff.1 h
    obtain ⟨g, gs, hg, hgs, rfl⟩ := ih hds
    have hgroup : IsDigitGroup (c :: g) :=
      ⟨List.cons_ne_nil _ _, List.forall_mem_cons.2 ⟨Option.isSome_of_eq_some hd, hg⟩⟩
    exact ⟨[], (c :: g) :: gs, by simp, List.forall_mem_cons.2 ⟨hgroup, hgs⟩, rfl⟩
  | case3 c rest hd =>
    rw [moreDigits, hd] at h
    cases h
  | case4 c rest _ d hd ih =>
    rw [moreDigits_digit hd] at h
    obtain ⟨ds, hds, -⟩ := Option.map_eq_some_iff.1 h
    obtain ⟨g, gs, hg, hgs, rfl⟩ := ih hds
    exact ⟨c :: g, gs, List.forall_mem_cons.2 ⟨Option.isSome_of_eq_some hd, hg⟩, hgs, rfl⟩
  | case5 c rest hlone hd =>
    rw [moreDigits.eq_3 _ _ hlone, hd] at h
    cases h

end MoreDigits

theorem digits?_intercalate {groups : List (List Char)} (hne : groups ≠ []) (h : ∀ g ∈ groups, IsDigitGroup g) :
    digits? (['_'].intercalate groups) = some (groups.flatten.filterMap digitValue?) := by
  obtain ⟨g, gs, rfl⟩ := List.exists_cons_of_ne_nil hne
  obtain ⟨⟨hg, hdigits⟩, hgs⟩ := List.forall_mem_cons.1 h
  obtain ⟨c, g, rfl⟩ := List.exists_cons_of_ne_nil hg
  obtain ⟨hc, hdigits⟩ := List.forall_mem_cons.1 hdigits
  obtain ⟨d, hd⟩ := Option.isSome_iff_exists.1 hc
  rw [intercalate_groups, List.cons_append, digits?, hd]
  simp [moreDigits_append hdigits, moreDigits_flatMap hgs, List.filterMap_cons_some hd]

theorem exists_groups_of_digits? {cs : List Char} {ds : List Nat} (h : digits? cs = some ds) :
    ∃ groups, groups ≠ [] ∧ (∀ g ∈ groups, IsDigitGroup g) ∧ cs = ['_'].intercalate groups := by
  fun_cases digits? cs with
  | case1 => cases h
  | case2 c rest d hd =>
    rw [digits?, hd] at h
    obtain ⟨ds, hds, -⟩ := Option.map_eq_some_iff.1 h
    obtain ⟨g, gs, hg, hgs, rfl⟩ := exists_groups_of_moreDigits hds
    have hgroup : IsDigitGroup (c :: g) :=
      ⟨List.cons_ne_nil _ _, List.forall_mem_cons.2 ⟨Option.isSome_of_eq_some hd, hg⟩⟩
    refine ⟨(c :: g) :: gs, List.cons_ne_nil _ _, List.forall_mem_cons.2 ⟨hgroup, hgs⟩, ?_⟩
    rw [intercalate_groups, List.cons_append]
  | case3 c rest hd =>
    rw [digits?, hd] at h
    cases h

/-! ## Numbers -/

theorem ofDigits_eq (ds : List Nat) : ofDigits ds = Nat.ofDigits 10 ds.reverse := by
  rw [ofDigits, Nat.ofDigits_eq_foldr, List.foldr_reverse]
  simp [Nat.add_comm]

theorem natural?_eq_some_iff {cs : List Char} {n : Nat} : natural? cs = some n ↔
    ∃ groups : List (List Char), groups ≠ [] ∧ (∀ g ∈ groups, IsDigitGroup g) ∧ groups.flatten.length ≤ 4300 ∧
      cs = ['_'].intercalate groups ∧ n = Nat.ofDigits 10 (groups.flatten.filterMap digitValue?).reverse := by
  constructor
  · intro h
    unfold natural? at h
    split at h
    · rename_i ds hds
      obtain ⟨groups, hne, hgroups, rfl⟩ := exists_groups_of_digits? hds
      obtain rfl := Option.some.inj ((digits?_intercalate hne hgroups).symm.trans hds)
      rw [length_filterMap_digits (isSome_digitValue? hgroups), ofDigits_eq] at h
      split at h
      · rename_i hlength
        exact ⟨groups, hne, hgroups, hlength, rfl, (Option.some.inj h).symm⟩
      · cases h
    · cases h
  · rintro ⟨groups, hne, hgroups, hlength, rfl, rfl⟩
    have hfits : (groups.flatten.filterMap digitValue?).length ≤ maxDigits := by
      rwa [length_filterMap_digits (isSome_digitValue? hgroups)]
    rw [natural?, digits?_intercalate hne hgroups]
    simp only [hfits, if_true, ofDigits_eq]

/-- A sign is no part of an unsigned numeral. -/
theorem natural?_of_sign {c : Char} (h : digitValue? c = none) (rest : List Char) : natural? (c :: rest) = none := by
  simp [natural?, digits?, h]

theorem signed?_minus (rest : List Char) :
    signed? ('-' :: rest) = (natural? rest).map fun n : Nat => -(n : Int) := by
  rw [signed?]
  cases natural? rest <;> rfl

theorem signed?_eq_some_iff {cs : List Char} {n : Int} : signed? cs = some n ↔
    ∃ (sign : Sign) (body : List Char) (k : Nat), cs = sign.text ++ body ∧ natural? body = some k ∧
      n = sign.apply k := by
  constructor
  · intro h
    cases cs using signed?.fun_cases with
    | case1 rest =>
      rw [signed?_minus] at h
      obtain ⟨k, hk, rfl⟩ := Option.map_eq_some_iff.1 h
      exact ⟨.minus, rest, k, rfl, hk, rfl⟩
    | case2 rest =>
      obtain ⟨k, hk, rfl⟩ := Option.map_eq_some_iff.1 h
      exact ⟨.plus, rest, k, rfl, hk, rfl⟩
    | case3 _ hminus hplus =>
      rw [signed?.eq_3 _ hminus hplus] at h
      obtain ⟨k, hk, rfl⟩ := Option.map_eq_some_iff.1 h
      exact ⟨.absent, cs, k, rfl, hk, rfl⟩
  · rintro ⟨sign, body, k, rfl, hk, rfl⟩
    cases sign with
    | minus => exact (signed?_minus body).trans (Option.map_eq_some_iff.2 ⟨k, hk, rfl⟩)
    | plus => exact Option.map_eq_some_iff.2 ⟨k, hk, rfl⟩
    | absent =>
      have hbegins : ∀ c rest, body = c :: rest → digitValue? c ≠ none := by
        rintro c rest rfl hc
        cases (natural?_of_sign hc rest).symm.trans hk
      have hminus : ∀ rest, body = '-' :: rest → False := fun rest h => hbegins _ _ h (by decide)
      have hplus : ∀ rest, body = '+' :: rest → False := fun rest h => hbegins _ _ h (by decide)
      rw [Sign.text, List.nil_append, signed?.eq_3 _ hminus hplus, hk]
      rfl

/-! ## Padding -/

theorem exists_padding (cs : List Char) :
    ∃ lead trail, (∀ c ∈ lead, isPadding c = true) ∧ (∀ c ∈ trail, isPadding c = true) ∧
      cs = lead ++ trimPadding cs ++ trail := by
  refine ⟨cs.takeWhile isPadding, (cs.dropWhile isPadding).rtakeWhile isPadding, ?_, ?_, ?_⟩
  · exact fun c hc => List.mem_takeWhile_imp hc
  · exact fun c hc => List.mem_rtakeWhile_imp hc
  · have hbehind : trimPadding cs ++ (cs.dropWhile isPadding).rtakeWhile isPadding = cs.dropWhile isPadding :=
      List.rdropWhile_append_rtakeWhile
    rw [List.append_assoc, hbehind, List.takeWhile_append_dropWhile]

/-- Padding around characters that are none is trimmed. -/
theorem trimPadding_padded {lead core trail : List Char} (hlead : ∀ c ∈ lead, isPadding c = true)
    (htrail : ∀ c ∈ trail, isPadding c = true) (hcore : ∀ c ∈ core, isPadding c = false) (hne : core ≠ []) :
    trimPadding (lead ++ core ++ trail) = core := by
  have hstop : ∀ before core' behind : List Char, (∀ c ∈ before, isPadding c = true) →
      (∀ c ∈ core', isPadding c = false) → core' ≠ [] →
      (before ++ (core' ++ behind)).dropWhile isPadding = core' ++ behind := by
    intro before core' behind hbefore hcore' hne'
    obtain ⟨c, core', rfl⟩ := List.exists_cons_of_ne_nil hne'
    have hc : ¬ isPadding c = true := ne_true_of_eq_false (hcore' c List.mem_cons_self)
    rw [List.dropWhile_append_of_pos hbefore, List.cons_append, List.dropWhile_cons_of_neg hc]
  have hfront := hstop lead core trail hlead hcore hne
  have hback := hstop trail.reverse core.reverse [] (fun c hc => htrail c (List.mem_reverse.1 hc))
    (fun c hc => hcore c (List.mem_reverse.1 hc)) (mt List.reverse_eq_nil_iff.1 hne)
  rw [List.append_nil] at hback
  rw [trimPadding, List.append_assoc, hfront, List.reverse_append, hback, List.reverse_reverse]

/-! ## Reading -/

namespace Numeral

variable (m : Numeral)

/-- A numeral without its padding. -/
def core : List Char :=
  m.sign.text ++ ['_'].intercalate m.groups

theorem signed?_core : signed? m.core = some m.value :=
  signed?_eq_some_iff.2 ⟨m.sign, _, _, rfl,
    natural?_eq_some_iff.2 ⟨m.groups, m.groups_ne_nil, m.grouped, m.length_le, rfl, rfl⟩, rfl⟩

theorem isPadding_core : ∀ c ∈ m.core, isPadding c = false := by
  intro c hc
  rcases List.mem_append.1 hc with hsign | hbody
  · exact Sign.isPadding_eq_false hsign
  · rcases mem_intercalate hbody with rfl | hdigit
    · decide
    · exact isPadding_of_digit (isSome_digitValue? m.grouped c hdigit)

theorem core_ne_nil : m.core ≠ [] := by
  obtain ⟨g, gs, hgroups⟩ := List.exists_cons_of_ne_nil m.groups_ne_nil
  have hg : g ≠ [] := (m.grouped g (hgroups ▸ List.mem_cons_self)).1
  rw [core, hgroups, intercalate_groups]
  simp [hg]

theorem trimPadding_text : trimPadding m.text.toList = m.core := by
  rw [text, String.toList_ofList]
  exact trimPadding_padded m.lead_padding m.trail_padding m.isPadding_core m.core_ne_nil

theorem integer?_text : integer? m.text = some m.value := by
  rw [integer?, m.trimPadding_text, m.signed?_core]

end Numeral

/-- A text is read as a number exactly if it is a numeral for it. -/
theorem integer?_eq_some_iff {text : String} {n : Int} :
    integer? text = some n ↔ ∃ m : Numeral, m.text = text ∧ m.value = n := by
  constructor
  · intro h
    obtain ⟨lead, trail, hlead, htrail, htext⟩ := exists_padding text.toList
    obtain ⟨sign, body, k, hsigned, hk, rfl⟩ := signed?_eq_some_iff.1 h
    obtain ⟨groups, hne, hgroups, hlength, rfl, rfl⟩ := natural?_eq_some_iff.1 hk
    refine ⟨⟨lead, sign, groups, trail, hlead, hne, hgroups, htrail, hlength⟩, ?_, rfl⟩
    rw [hsigned] at htext
    rw [Numeral.text, ← htext, String.ofList_toList]
  · rintro ⟨m, rfl, rfl⟩
    exact m.integer?_text

theorem integer?_eq_none_iff {text : String} : integer? text = none ↔ ∀ m : Numeral, m.text ≠ text := by
  rw [Option.eq_none_iff_forall_not_mem]
  constructor
  · rintro h m rfl
    exact h _ m.integer?_text
  · intro h n hn
    obtain ⟨m, hm, -⟩ := integer?_eq_some_iff.1 hn
    exact h m hm

/-! ## Usual renderings -/

namespace Numeral

theorem digitValue?_of_isDigit {c : Char} (h : c.isDigit) : digitValue? c = some (c.toNat - '0'.toNat) := by
  have htable : ∀ d < 10, digitValue? (Char.ofNat (48 + d)) = some d := by decide
  obtain ⟨hle, hge⟩ : 48 ≤ c.toNat ∧ c.toNat ≤ 57 := Char.isDigit_iff_toNat.1 h
  have hcode : Char.ofNat (48 + (c.toNat - 48)) = c := by
    rw [show 48 + (c.toNat - 48) = c.toNat by omega, Char.ofNat_toNat]
  have hvalue := htable (c.toNat - 48) (by omega)
  rwa [hcode] at hvalue

theorem isSome_digitValue?_of_isDigit {c : Char} (h : c.isDigit) : (digitValue? c).isSome :=
  Option.isSome_of_eq_some (digitValue?_of_isDigit h)

theorem ofDigits_filterMap {cs : List Char} (h : ∀ c ∈ cs, c.isDigit) :
    ofDigits (cs.filterMap digitValue?) = Nat.ofDigitChars 10 cs 0 := by
  rw [ofDigits, Nat.ofDigitChars_eq_foldl]
  generalize 0 = n
  induction cs generalizing n with
  | nil => rfl
  | cons c cs ih =>
    obtain ⟨hc, hcs⟩ := List.forall_mem_cons.1 h
    rw [List.filterMap_cons_some (digitValue?_of_isDigit hc), List.foldl_cons, List.foldl_cons, ih hcs]

/-- The number that a rendering writes is the one that it renders. -/
theorem Renders.value_eq {m : Numeral} {n : Int} (h : m.Renders n) : m.value = n := by
  obtain ⟨zeros, hdigits⟩ := h.digits
  have hdigit : ∀ c ∈ m.groups.flatten, c.isDigit := by
    rw [hdigits]
    refine List.forall_mem_append.2 ⟨fun c hc => ?_, fun c hc => Nat.isDigit_of_mem_toDigits (by decide) (by decide) hc⟩
    rw [List.eq_of_mem_replicate hc]
    rfl
  have hread : Nat.ofDigits 10 m.digits.reverse = n.natAbs := by
    calc Nat.ofDigits 10 m.digits.reverse = ofDigits m.digits := (ofDigits_eq _).symm
      _ = Nat.ofDigitChars 10 m.groups.flatten 0 := ofDigits_filterMap hdigit
      _ = n.natAbs := by
        rw [hdigits, Nat.ofDigitChars_append, Nat.ofDigitChars_replicate_zero, Nat.mul_zero,
          Nat.ofDigitChars_ten_toDigits]
  have hsign := h.sign
  rw [value, hread]
  cases hm : m.sign with
  | minus =>
    have hneg : n < 0 := hsign.1 hm
    show -(n.natAbs : Int) = n
    omega
  | absent | plus =>
    have hpos : ¬ n < 0 := fun hneg => by simp [hsign.2 hneg] at hm
    show (n.natAbs : Int) = n
    omega

/-- The usual rendering of a number, if it is short enough to be read. -/
def ofInt (n : Int) (h : (Nat.toDigits 10 n.natAbs).length ≤ 4300) : Numeral where
  sign := if n < 0 then .minus else .absent
  groups := [Nat.toDigits 10 n.natAbs]
  lead_padding := by simp
  groups_ne_nil := List.cons_ne_nil _ _
  grouped := by
    refine List.forall_mem_singleton.2 ⟨Nat.toDigits_ne_nil, fun c hc => ?_⟩
    exact isSome_digitValue?_of_isDigit (Nat.isDigit_of_mem_toDigits (by decide) (by decide) hc)
  trail_padding := by simp
  length_le := by simpa using h

theorem ofInt_text {n : Int} (h : (Nat.toDigits 10 n.natAbs).length ≤ 4300) : (ofInt n h).text = toString n := by
  have htext : (ofInt n h).text = String.ofList ((ofInt n h).sign.text ++ Nat.toDigits 10 n.natAbs) := by
    simp [text, ofInt, List.intercalate_singleton]
  rw [htext]
  cases n with
  | ofNat k =>
    have hpos : ¬ Int.ofNat k < 0 := Int.not_lt.2 (Int.natCast_nonneg k)
    have hsign : (ofInt (Int.ofNat k) h).sign = .absent := by simp only [ofInt, hpos, if_false]
    rw [hsign]
    exact Nat.repr_eq_ofList_toDigits.symm
  | negSucc k =>
    have hsign : (ofInt (Int.negSucc k) h).sign = .minus := by
      simp only [ofInt, Int.negSucc_lt_zero k, if_true]
    rw [hsign, String.ofList_append]
    exact congrArg ("-" ++ ·) Nat.repr_eq_ofList_toDigits.symm

theorem ofInt_renders {n : Int} (h : (Nat.toDigits 10 n.natAbs).length ≤ 4300) : (ofInt n h).Renders n where
  digits := ⟨0, by simp [ofInt]⟩
  sign := by
    by_cases hneg : n < 0 <;> simp [ofInt, hneg]

end Numeral

end Conch
