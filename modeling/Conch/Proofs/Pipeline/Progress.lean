-- SUMMARY: A pipeline is never stuck: until it is over, a stage, a relay or the interpreter can move.
import Conch.Proofs.Pipeline.Invariant

/-!
# Progress

A stage can only be held up by a pipe: by one at its input that is starved, or by
one at its output that is jammed. A relay can only be held up by the same two. Where
nothing can move, waiting for bytes would have to come from further and further to
the left, and there the first stage is at the end of its input; waiting for room
would have to come from further and further to the right, and there the last stage
writes to no pipe. So every stage has ended and every relay has finished, and then
the interpreter can go on.

Nothing waits for a worker of the pool either, because there are as many workers as
there can be tasks.
-/

namespace Conch

/-! ## What holds up stages and relays -/

theorem Member.held_up_of_step {m : Member} {wish : Nat} {w : World} (h : m.step wish w = none) :
    m.isEnded = true ∨ (∃ t, m.input = some t ∧ t.Starved) ∨ (∃ s, m.output = some s ∧ s.Jammed) := by
  unfold step at h
  split at h
  · rename_i e htask
    left
    unfold isEnded
    rw [htask]
  · cases h
  · split at h
    · cases h
    · rename_i t hinput
      split at h
      · rename_i hread
        exact .inr (.inl ⟨t, hinput, Pipe.starved_of_read hread⟩)
      · cases h
  · split at h
    · cases h
    · rename_i s houtput
      split at h
      · rename_i hwrite
        exact .inr (.inr ⟨s, houtput, Pipe.jammed_of_write hwrite⟩)
      · cases h
      · cases h
      · cases h
  · cases h
  · cases h

theorem Carrier.held_up_of_step {c : Carrier} {wish : Nat} {source target : Option Pipe}
    (h : c.step wish source target = none) :
    c.finished = true ∨ ∃ s t, source = some s ∧ target = some t ∧ (s.Starved ∨ t.Jammed) := by
  unfold step at h
  dsimp only at h
  split at h
  · rename_i hfinished
    exact .inl hfinished
  split at h
  · rename_i s t
    refine .inr ⟨s, t, rfl, rfl, ?_⟩
    split at h
    · split at h
      · rename_i hread
        exact .inl (Pipe.starved_of_read hread)
      · cases h
      · cases h
    · split at h
      · rename_i hwrite
        exact .inr (Pipe.jammed_of_write hwrite)
      · cases h
      · cases h
  · cases h

/-- A pipe cannot hold up its reader and its writer at once. -/
theorem Pipe.Starved.not_jammed {p : Pipe} (h : p.Starved) : ¬ p.Jammed :=
  fun hjammed => hjammed.not_empty h.empty

namespace Network

/-- All stages and all relays are held up by their pipes, unless they have come to their ends. -/
structure Blocked (net : Network) : Prop where
  stages : ∀ (i : Nat) (m : Member), net.members[i]? = some m → m.isEnded = true ∨
    (∃ t, m.input = some t ∧ t.Starved) ∨ (∃ s, m.output = some s ∧ s.Jammed)
  relays : ∀ (i : Nat) (before after : Member) (c : Carrier), net.members[i]? = some before →
    net.members[i + 1]? = some after → net.carriers[i]? = some c → c.finished = true ∨
      ∃ s t, before.output = some s ∧ after.input = some t ∧ (s.Starved ∨ t.Jammed)

variable {programs : Programs} {ctx : Context} {p : Pipeline} {net : Network}

theorem Invariant.blocked (h : net.Invariant programs p) (hstuck : ∀ move, net.step programs ctx move = none) :
    net.Blocked := by
  refine ⟨?_, ?_⟩
  · intro i m hm
    have hnone := hstuck (.stage i 0)
    rw [h.step_stage ctx 0 hm] at hnone
    exact Member.held_up_of_step (Option.map_eq_none_iff.1 hnone)
  · intro i before after c hbefore hafter hc
    have hnone := hstuck (.relay i 0)
    rw [h.step_relay ctx 0 hbefore hc hafter] at hnone
    exact Carrier.held_up_of_step (Option.map_eq_none_iff.1 hnone)

/-! ## Nothing is held up for ever -/

namespace Blocked

/-- Nobody waits for bytes. By induction from the first stage on: a stage that waits for bytes waits
    for the one before. -/
theorem not_starved (hb : net.Blocked) (h : net.Invariant programs p) (i : Nat) :
    ∀ m t, net.members[i]? = some m → m.input = some t → ¬ t.Starved := by
  induction i with
  | zero =>
    intro m t hm ht hstarved
    have hwriter := (h.first t ((inputOf_eq hm).trans ht)).2
    rw [hstarved.writer] at hwriter
    cases hwriter
  | succ i ih =>
    intro after t hafter ht hstarved
    have hmore := (List.getElem?_eq_some_iff.1 hafter).1
    obtain ⟨c, hc⟩ := h.carrier_exists hmore
    have hbefore := List.getElem?_eq_getElem (Nat.lt_of_succ_lt hmore)
    have hwriter := (h.link hbefore hc hafter).target_writer t ht
    rw [hstarved.writer] at hwriter
    rcases hb.relays i _ after c hbefore hafter hc with hfinished | ⟨s, t', hs, ht', hheld⟩
    · rw [hfinished] at hwriter
      cases hwriter
    · rw [ht] at ht'
      cases ht'
      -- The relay has nothing to pass on, so the stage before has not ended.
      have hsource : s.Starved := hheld.resolve_right hstarved.not_jammed
      have hrunning := (h.members i _ hbefore).1.output_writer s hs
      rw [hsource.writer] at hrunning
      rcases hb.stages i _ hbefore with hended | ⟨t', ht', hstarved'⟩ | ⟨s', hs', hjammed⟩
      · rw [hended] at hrunning
        cases hrunning
      · exact ih _ t' hbefore ht' hstarved'
      · rw [hs] at hs'
        cases hs'
        exact hsource.not_jammed hjammed

/-- Nobody waits for room, once all stages were started. By induction from the last stage back: a
    stage that waits for room waits for the one behind it. -/
theorem not_jammed (hb : net.Blocked) (h : net.Invariant programs p)
    (hall : net.members.length = p.stages.length) (k : Nat) :
    ∀ i m s, i + k + 1 = net.members.length → net.members[i]? = some m → m.output = some s → ¬ s.Jammed := by
  induction k with
  | zero =>
    intro i m s hi hm hs hjammed
    have hsome : m.output.isSome = true := by
      rw [hs]
      rfl
    have hrange := ((h.members i m hm).2.output_iff.1 hsome).2
    omega
  | succ k ih =>
    intro i before s hi hbefore hs hjammed
    have hmore : i + 1 < net.members.length := by omega
    obtain ⟨c, hc⟩ := h.carrier_exists hmore
    have hafter := List.getElem?_eq_getElem hmore
    have hreader := (h.link hbefore hc hafter).source_reader s hs
    rw [hjammed.reader] at hreader
    rcases hb.relays i before _ c hbefore hafter hc with hfinished | ⟨s', t, hs', ht, hheld⟩
    · rw [hfinished] at hreader
      cases hreader
    · rw [hs] at hs'
      cases hs'
      -- The relay has no room to pass on, so the stage behind has not ended.
      have htarget : t.Jammed := hheld.resolve_left fun hstarved => hstarved.not_jammed hjammed
      rcases hb.stages (i + 1) _ hafter with hended | ⟨t', ht', hstarved⟩ | ⟨s', hs', hjammed'⟩
      · have hclosed := (h.members (i + 1) _ hafter).1.input_reader hended t ht
        rw [htarget.reader] at hclosed
        cases hclosed
      · rw [ht] at ht'
        cases ht'
        exact hstarved.not_jammed htarget
      · exact ih (i + 1) _ s' (by omega) hafter hs' hjammed'

theorem all_ended (hb : net.Blocked) (h : net.Invariant programs p)
    (hall : net.members.length = p.stages.length) {i : Nat} {m : Member} (hm : net.members[i]? = some m) :
    m.isEnded = true := by
  rcases hb.stages i m hm with hended | ⟨t, ht, hstarved⟩ | ⟨s, hs, hjammed⟩
  · exact hended
  · exact absurd hstarved (hb.not_starved h i m t hm ht)
  · have hi := (List.getElem?_eq_some_iff.1 hm).1
    exact absurd hjammed (hb.not_jammed h hall (net.members.length - i - 1) i m s (by omega) hm hs)

theorem all_finished (hb : net.Blocked) (h : net.Invariant programs p)
    (hall : net.members.length = p.stages.length) {i : Nat} {c : Carrier} (hc : net.carriers[i]? = some c) :
    c.finished = true := by
  have hlength := h.carriers
  have hi := (List.getElem?_eq_some_iff.1 hc).1
  have hbefore := List.getElem?_eq_getElem (show i < net.members.length by omega)
  have hafter := List.getElem?_eq_getElem (show i + 1 < net.members.length by omega)
  rcases hb.relays i _ _ c hbefore hafter hc with hfinished | ⟨s, t, hs, ht, hstarved | hjammed⟩
  · exact hfinished
  · have hwriter := (h.members i _ hbefore).1.output_writer s hs
    rw [hstarved.writer, hb.all_ended h hall hbefore] at hwriter
    cases hwriter
  · have hreader := (h.members (i + 1) _ hafter).1.input_reader (hb.all_ended h hall hafter) t ht
    rw [hjammed.reader] at hreader
    cases hreader

end Blocked

/-! ## The interpreter -/

/-- The pool can be left when all stages have ended and all relays have finished. -/
theorem Invariant.leave_isSome (h : net.Invariant programs p)
    (hended : ∀ (i : Nat) (m : Member), net.members[i]? = some m → m.isEnded = true)
    (hfinished : ∀ (i : Nat) (c : Carrier), net.carriers[i]? = some c → c.finished = true)
    (hover : net.isOver = false) : net.leave.isSome = true := by
  have hdone : ∀ t ∈ net.tasks, net.isDone t = true := by
    intro t ht
    cases t with
    | stage i =>
      have hrole := (h.pooled.mem_stage i).1 ht
      rw [roles, List.getElem?_map] at hrole
      obtain ⟨m, hm, -⟩ := Option.map_eq_some_iff.1 hrole
      rw [isDone, hm]
      exact hended i m hm
    | relay i =>
      have hc := List.getElem?_eq_getElem ((h.pooled.mem_relay i).1 ht)
      rw [isDone, hc]
      exact hfinished i _ hc
  unfold leave
  rw [if_pos]
  · rfl
  · rw [hover, List.all_eq_true.2 hdone]
    rfl

/-- The interpreter can go on when all stages were started and have ended, and all relays have
    finished. -/
theorem Invariant.wait_isSome (h : net.Invariant programs p) (hwaiting : net.waiting = [])
    (hstarting : net.starting = none)
    (hended : ∀ (i : Nat) (m : Member), net.members[i]? = some m → m.isEnded = true)
    (hfinished : ∀ (i : Nat) (c : Carrier), net.carriers[i]? = some c → c.finished = true)
    (hover : net.isOver = false) : net.wait.isSome = true := by
  unfold Network.wait
  split
  · rw [if_neg (by rw [hwaiting, hstarting]; decide)]
    split
    · rename_i m hm
      have hm' := hended _ m hm
      unfold Member.isEnded at hm'
      split
      · rename_i htask
        rw [htask] at hm'
        cases hm'
      · rfl
      · rfl
    split
    · rename_i c hc
      rw [if_pos (hfinished _ c hc)]
      rfl
    · exact h.leave_isSome hended hfinished hover
  · exact h.leave_isSome hended hfinished hover

/-- Stages can be started as long as there are any left, if no start has come to a fault. -/
theorem start_isSome (programs : Programs) (ctx : Context) (inputSize outputSize : Nat)
    (hleft : net.waiting ≠ [] ∨ net.starting.isSome = true) (haborted : net.aborted = none) :
    (net.start programs ctx inputSize outputSize).isSome = true := by
  unfold start
  split
  · rfl
  · rfl
  · rfl
  · rename_i hnone
    obtain ⟨s, waiting, hwaiting⟩ : ∃ s waiting, net.waiting = s :: waiting := by
      refine List.exists_cons_of_ne_nil (hleft.resolve_right ?_)
      rw [hnone]
      decide
    rw [haborted, hwaiting]
    rfl

/-- A pipeline that is not over can move, whatever its stages are and however much its pipes hold. -/
theorem Invariant.can_move (h : net.Invariant programs p) (haborted : net.aborted = none)
    (hover : net.isOver = false) : ∃ move next, net.step programs ctx move = some next := by
  by_contra hnot
  have hstuck : ∀ move, net.step programs ctx move = none := by
    intro move
    refine Option.eq_none_iff_forall_ne_some.2 fun next hnext => ?_
    exact hnot ⟨move, next, hnext⟩
  have hstarted : ¬ (net.waiting ≠ [] ∨ net.starting.isSome = true) := by
    intro hleft
    have hstart := start_isSome programs ctx 0 0 hleft haborted
    rw [show net.start programs ctx 0 0 = none from hstuck (.start 0 0)] at hstart
    cases hstart
  obtain ⟨hwaiting, hstarting⟩ : net.waiting = [] ∧ net.starting = none := by
    simpa using hstarted
  have hall : net.members.length = p.stages.length := by
    have hdrop := h.waiting haborted
    rw [hwaiting, hstarting] at hdrop
    have hle := List.drop_eq_nil_iff.1 hdrop.symm
    have hmembers := h.members_le
    simp only [Option.toList_none, List.length_nil, Nat.add_zero] at hle
    omega
  have hb := h.blocked hstuck
  have hwait := h.wait_isSome hwaiting hstarting (fun i m => hb.all_ended h hall)
    (fun i c => hb.all_finished h hall) hover
  rw [show net.wait = none from hstuck .wait] at hwait
  cases hwait

/-- A pipeline is never stuck before it is over, unless a stage could not be started because of a
    fault. The pool has one task for each built-in stage and one for each pair of neighbours, and a
    worker for each of them. -/
theorem progress_of_reachable {w : World} (h : Reachable programs ctx p w net) :
    (net.aborted = none → net.isOver = false → ∃ move next, net.step programs ctx move = some next) ∧
    net.tasks.length = (net.members.map Member.role).count .builtin + (net.members.length - 1) ∧
    net.tasks.length ≤ net.workers ∧ net.workers = 2 * p.stages.length ∧
    ∀ t ∈ net.tasks, net.hasWorker t = true := by
  have hinv := h.invariant
  refine ⟨hinv.can_move, ?_, hinv.tasks_le, hinv.workers, fun t => hinv.hasWorker⟩
  rw [← hinv.carriers]
  exact hinv.pooled.length_eq

/-- Both stages of the sample are held up here, the first for room and the second for bytes. -/
theorem progress_of_reachable_when_both_wait : ∃ net,
    Reachable Sample.programs Sample.context Sample.pipeline Sample.world net ∧
    net.step Sample.programs Sample.context (.stage 0 1) = none ∧
    net.step Sample.programs Sample.context (.stage 1 1) = none ∧
    (∃ move next, net.step Sample.programs Sample.context move = some next) ∧ net.tasks.length = 2 := by
  have hrun : ((Sample.after [.stage 0 1, .stage 0 1]).map fun net =>
      (net.aborted.isNone, net.isOver, (net.step Sample.programs Sample.context (.stage 0 1)).isNone,
        (net.step Sample.programs Sample.context (.stage 1 1)).isNone, net.tasks.length)) =
      some (true, false, true, true, 2) := by
    decide +kernel
  obtain ⟨net, hnet, hfacts⟩ := Option.map_eq_some_iff.1 hrun
  simp only [Prod.mk.injEq, Option.isNone_iff_eq_none] at hfacts
  obtain ⟨haborted, hover, hfirst, hsecond, htasks⟩ := hfacts
  have hreachable := Sample.reachable hnet
  exact ⟨net, hreachable, hfirst, hsecond, (progress_of_reachable hreachable).1 haborted hover, htasks⟩

end Network

end Conch
