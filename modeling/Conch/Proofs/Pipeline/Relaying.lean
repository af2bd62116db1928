-- SUMMARY: What a relay passes on, how it counts it, and what it leaves of its two ends.
import Mathlib.Order.Bounds.Defs
import Conch.Relay

/-!
# What a relay passes on

A relay takes chunks from one end and hands them to the other. `Passing` says which
of them get through, without the loop: those in front of the first that is refused,
where each is offered on top of what the ones before have left. All the rest follows
from that. What the other end holds, the count, and the state of both ends are told
by the chunks that got through.

Behind a destination that has room for a number of bytes, chunks of full size get
through as long as there is room for another.
-/

namespace Conch.Relay

/-- Chunks in which a source hands out its bytes. None of them is empty, for an empty one would be the end. -/
structure Cut (bytes : Bytes) (pieces : List Bytes) : Prop where
  whole : pieces.flatten = bytes
  ne_nil : ∀ piece ∈ pieces, piece ≠ []
  bounded : ∀ piece ∈ pieces, piece.length ≤ chunkSize

/-- Of the chunks that a destination is offered in order, those in front of the first refused one, and the others. -/
structure Passing (d : Destination) (pieces passed others : List Bytes) : Prop where
  split : pieces = passed ++ others
  taken : ∀ before piece after, passed = before ++ piece :: after → d.accepts (d.held ++ before.flatten) piece = true
  refused : ∀ piece ∈ others.head?, d.accepts (d.held ++ passed.flatten) piece = false

namespace Passing

variable {d : Destination} {piece : Bytes} {pieces passed others : List Bytes}

theorem nil : Passing d [] [] [] where
  split := rfl
  taken before piece after h := by simp at h
  refused piece h := by cases h

theorem stop (h : d.accepts d.held piece = false) : Passing d (piece :: pieces) [] (piece :: pieces) where
  split := rfl
  taken before piece after h := by simp at h
  refused other hother := by
    cases hother
    simpa using h

/-- One more chunk in front, which the destination takes before it is offered the others. -/
theorem cons (h : d.accepts d.held piece = true)
    (hrest : Passing { d with held := d.held ++ piece } pieces passed others) :
    Passing d (piece :: pieces) (piece :: passed) others where
  split := congrArg (List.cons piece) hrest.split
  taken before other after hsplit := by
    cases before with
    | nil =>
      obtain ⟨rfl, -⟩ := List.cons.inj hsplit
      simpa using h
    | cons first before =>
      obtain ⟨rfl, htail⟩ := List.cons.inj hsplit
      simpa [List.append_assoc] using hrest.taken before other after htail
  refused other hother := by simpa [List.append_assoc] using hrest.refused other hother

end Passing

/-- The loop copies the chunks that get through and has read at most one more. -/
theorem copyChunks_passing (pieces : List Bytes) (copied : Nat) (d : Destination) :
    ∃ passed others, Passing d pieces passed others ∧
      copyChunks copied pieces d =
        (copied + passed.flatten.length, others.tail, { d with held := d.held ++ passed.flatten }) := by
  induction pieces generalizing copied d with
  | nil => exact ⟨[], [], .nil, by simp [copyChunks]⟩
  | cons piece pieces ih =>
    cases haccepts : d.accepts d.held piece with
    | false => exact ⟨[], piece :: pieces, .stop haccepts, by simp [copyChunks, haccepts]⟩
    | true =>
      obtain ⟨passed, others, hpassing, hcopy⟩ := ih (copied + piece.length) { d with held := d.held ++ piece }
      refine ⟨piece :: passed, others, hpassing.cons haccepts, ?_⟩
      rw [copyChunks, if_pos haccepts, hcopy]
      simp [Nat.add_assoc]

/-! ## Chunks of full size -/

theorem chunksOf_flatten {size fuel : Nat} {bytes : Bytes} (h : bytes.length ≤ fuel) :
    (chunksOf size fuel bytes).flatten = bytes := by
  fun_induction chunksOf size fuel bytes with
  | case1 bytes => simpa [eq_comm] using h
  | case2 fuel => rfl
  | case3 fuel bytes hne ih =>
    have hpos := List.length_pos_iff.2 hne
    have hdrop : (bytes.drop (size + 1)).length ≤ fuel := by
      rw [List.length_drop]
      omega
    rw [List.flatten_cons, ih hdrop, List.take_append_drop]

theorem mem_chunksOf {size fuel : Nat} {bytes piece : Bytes} (h : piece ∈ chunksOf size fuel bytes) :
    piece ≠ [] ∧ piece.length ≤ size + 1 := by
  fun_induction chunksOf size fuel bytes with
  | case1 bytes => cases h
  | case2 fuel => cases h
  | case3 fuel bytes hne ih =>
    rcases List.mem_cons.1 h with rfl | hrest
    · exact ⟨by simpa using hne, List.length_take_le _ _⟩
    · exact ih hrest

/-- A chunk with another one behind it has full size. -/
theorem length_of_chunksOf {size fuel : Nat} {bytes piece : Bytes} {before after : List Bytes}
    (h : chunksOf size fuel bytes = before ++ piece :: after) : ∀ earlier ∈ before, earlier.length = size + 1 := by
  induction before generalizing fuel bytes with
  | nil => exact fun earlier hmem => absurd hmem List.not_mem_nil
  | cons first before ih =>
    cases fuel with
    | zero => cases h
    | succ fuel =>
      cases bytes with
      | nil => cases h
      | cons b bytes =>
        have hcut : (b :: bytes).take (size + 1) :: chunksOf size fuel ((b :: bytes).drop (size + 1)) =
            first :: (before ++ piece :: after) := h
        obtain ⟨rfl, hrest⟩ := List.cons.inj hcut
        refine List.forall_mem_cons.2 ⟨?_, ih hrest⟩
        have hmore : (b :: bytes).drop (size + 1) ≠ [] := by
          intro hnil
          rw [hnil] at hrest
          cases fuel <;> simp [chunksOf] at hrest
        rw [Ne, List.drop_eq_nil_iff, Nat.not_le] at hmore
        exact List.length_take_of_le (Nat.le_of_lt hmore)

theorem chunks_cut (bytes : Bytes) : Cut bytes (chunks bytes) where
  whole := chunksOf_flatten (Nat.le_refl _)
  ne_nil _ h := (mem_chunksOf h).1
  bounded _ h := (mem_chunksOf h).2

section Limit

variable {bytes : Bytes} {limit : Nat} {passed others : List Bytes}

/-- What got through stays within the limit. -/
theorem Passing.within {d : Destination} {pieces : List Bytes} (hd : d.accepts = withinLimit limit) (hempty : d.held = [])
    (h : Passing d pieces passed others) : passed.flatten.length ≤ limit := by
  cases hpassed : passed.eq_nil_or_concat with
  | inl hnil => simp [hnil]
  | inr hlast =>
    obtain ⟨before, piece, rfl⟩ := hlast
    have htaken := h.taken before piece [] (by simp)
    simpa [hd, hempty, withinLimit] using htaken

/-- Behind a limit that leaves room for the whole source, all of it gets through. Otherwise as many full chunks do
    as there is room for. -/
theorem Passing.length_of_limit {d : Destination} (hd : d.accepts = withinLimit limit) (hempty : d.held = [])
    (h : Passing d (chunks bytes) passed others) :
    (bytes.length ≤ limit → passed.flatten.length = bytes.length) ∧
      (limit < bytes.length → IsGreatest {n | chunkSize ∣ n ∧ n ≤ limit} passed.flatten.length) := by
  have hwithin := h.within hd hempty
  have hwhole : bytes = passed.flatten ++ others.flatten := by
    rw [← List.flatten_append, ← h.split, (chunks_cut bytes).whole]
  have hlength := congrArg List.length hwhole
  rw [List.length_append] at hlength
  cases others with
  | nil =>
    rw [List.flatten_nil, List.length_nil, Nat.add_zero] at hlength
    exact ⟨fun _ => hlength.symm, fun hlong => by omega⟩
  | cons piece others =>
    have hfull : ∀ earlier ∈ passed, earlier.length = chunkSize := length_of_chunksOf h.split
    have hpassed : passed.flatten.length = passed.length * chunkSize := by
      rw [List.length_flatten, List.map_congr_left hfull, List.map_const', List.sum_replicate_nat]
    have hrefused : limit < passed.flatten.length + piece.length := by
      have hrefused := h.refused piece rfl
      simpa [hd, hempty, withinLimit] using hrefused
    have hmem : piece ∈ chunks bytes := by
      rw [h.split]
      exact List.mem_append_right _ List.mem_cons_self
    have hpiece := (chunks_cut bytes).bounded piece hmem
    rw [List.flatten_cons, List.length_append] at hlength
    refine ⟨fun hshort => by omega, fun hlong => ⟨⟨?_, hwithin⟩, ?_⟩⟩
    · rw [hpassed]
      exact Nat.dvd_mul_left chunkSize passed.length
    · rintro n ⟨⟨k, rfl⟩, hn⟩
      -- one full chunk more would not fit, so no larger multiple does
      have hk : k < passed.length + 1 := by
        refine Nat.lt_of_mul_lt_mul_left (a := chunkSize) ?_
        rw [Nat.mul_add, Nat.mul_comm chunkSize passed.length, ← hpassed]
        omega
      rw [hpassed, Nat.mul_comm]
      exact Nat.mul_le_mul_right chunkSize (Nat.le_of_lt_succ hk)

end Limit

/-! ## A relay -/

/-- A relay passes the chunks in front of the first that is refused, in order and each of them whole, and gives the
    number of their bytes. It closes its source, and its destination once more. With one end missing it moves nothing
    and closes the other. So of a source that is read in chunks of full size, a destination with a limit gets all
    bytes if they fit, and otherwise as many full chunks as fit. -/
theorem run_passes_prefix :
    (∀ (bytes : Bytes) (s : Source) (d : Destination), Cut bytes s.pending →
      ∃ passed others, Passing d s.pending passed others ∧ (others = [] → passed.flatten = bytes) ∧
        run (some s) (some d) =
          (passed.flatten.length, some { pending := others.tail, closed := true },
            some { d with held := d.held ++ passed.flatten, closes := d.closes + 1 })) ∧
    (∀ (s? : Option Source) (d? : Option Destination), s? = none ∨ d? = none →
      run s? d? =
        (0, s?.map fun s => { s with closed := true }, d?.map fun d => { d with closes := d.closes + 1 })) ∧
    ∀ (bytes : Bytes) (limit : Nat), ∃ count s d,
      run (some { pending := chunks bytes }) (some { accepts := withinLimit limit }) = (count, some s, some d) ∧
        d.held.length = count ∧ (bytes.length ≤ limit → count = bytes.length) ∧
        (limit < bytes.length → IsGreatest {n | chunkSize ∣ n ∧ n ≤ limit} count) := by
  have hpasses : ∀ (s : Source) (d : Destination), ∃ passed others, Passing d s.pending passed others ∧
      run (some s) (some d) =
        (passed.flatten.length, some { pending := others.tail, closed := true },
          some { d with held := d.held ++ passed.flatten, closes := d.closes + 1 }) := by
    intro s d
    obtain ⟨passed, others, hpassing, hcopy⟩ := copyChunks_passing s.pending 0 d
    refine ⟨passed, others, hpassing, ?_⟩
    simp only [run, hcopy, Nat.zero_add]
    rfl
  refine ⟨?_, ?_, ?_⟩
  · intro bytes s d hcut
    obtain ⟨passed, others, hpassing, hrun⟩ := hpasses s d
    refine ⟨passed, others, hpassing, ?_, hrun⟩
    rintro rfl
    rw [← hcut.whole, hpassing.split, List.append_nil]
  · rintro s? d? (rfl | rfl)
    · cases d? <;> rfl
    · cases s? <;> rfl
  · intro bytes limit
    obtain ⟨passed, others, hpassing, hrun⟩ := hpasses { pending := chunks bytes } { accepts := withinLimit limit }
    obtain ⟨hfits, hcut⟩ := hpassing.length_of_limit rfl rfl
    exact ⟨_, _, _, hrun, by simp, hfits, hcut⟩

/-- Four chunks for a destination that refuses the third. The fourth would fit, but is not read any more. -/
theorem run_passes_prefix_up_to_refused_chunk :
    Cut [1, 2, 3, 4, 5, 6, 7] [[1, 2], [3], [4, 5, 6], [7]] ∧
      ∃ passed others,
        Passing { accepts := withinLimit 5, held := [0] } [[1, 2], [3], [4, 5, 6], [7]] passed others ∧
          passed.flatten = [1, 2, 3] ∧ others.tail = [[7]] := by
  have hcut : Cut [1, 2, 3, 4, 5, 6, 7] [[1, 2], [3], [4, 5, 6], [7]] := ⟨by decide, by decide, by decide⟩
  obtain ⟨passed, others, hpassing, -, hrun⟩ := run_passes_prefix.1 [1, 2, 3, 4, 5, 6, 7]
    { pending := [[1, 2], [3], [4, 5, 6], [7]] } { accepts := withinLimit 5, held := [0] } hcut
  have hcopied : run (some { pending := [[1, 2], [3], [4, 5, 6], [7]] })
      (some { accepts := withinLimit 5, held := [0] }) =
        (3, some { pending := [[7]], closed := true },
          some { accepts := withinLimit 5, held := [0, 1, 2, 3], closes := 1 }) := rfl
  rw [hcopied] at hrun
  injection hrun with hcount hends
  injection hends with hsource hdestination
  injection hsource with hsource
  injection hdestination with hdestination
  injection hsource with hothers
  injection hdestination with haccepts hheld
  exact ⟨hcut, passed, others, hpassing, (List.cons.inj hheld).2.symm, hothers.symm⟩

end Conch.Relay
