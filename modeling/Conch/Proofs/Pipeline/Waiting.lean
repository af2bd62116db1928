-- SUMMARY: What the interpreter has seen of the stages it waited for, in every network that can be reached.
import Conch.Pipeline.Run
import Conch.Proofs.Pipeline.Invariant

/-!
# Waiting for stages

The interpreter waits for the stages in turn and notes their statuses, up to a
stage that ended in a fault. A stage that has ended stays as it is, so what was
noted of a stage is what the stage came to. The interpreter leaves only after a
fault or when it has seen every stage, and so the outcome of a pipeline that is
over is either a fault of one of its stages or the status of the last one.
-/

namespace Conch

namespace Network

variable {programs : Programs} {ctx : Context} {p : Pipeline} {net next : Network}

/-! ## What starting and waiting can do -/

/-- What one move of starting can be. -/
inductive StartMove (programs : Programs) (ctx : Context) (net : Network) : Network → Prop
  | called {c : Call} {resume : c.Reply → Job Started} (hstarting : net.starting = some (.ask c resume)) :
    StartMove programs ctx net
      { net with world := (net.world.perform c).2, starting := some (resume (net.world.perform c).1) }
  | aborted {fault : Fault} {owned : List Handle} (hstarting : net.starting = some (.done (.error (fault, owned)))) :
    StartMove programs ctx net { net with starting := none, aborted := some fault, leftover := owned }
  | joined {m : Member} (hstarting : net.starting = some (.done (.ok m))) :
    StartMove programs ctx net (net.join m)
  | begun {s : Stage} {waiting : List Stage} (inputSize outputSize : Nat) (hstarting : net.starting = none)
      (haborted : net.aborted = none) (hwaiting : net.waiting = s :: waiting) :
    StartMove programs ctx net
      { net with
        waiting
        starting := some (startStage programs ctx net.members.isEmpty waiting.isEmpty inputSize outputSize s) }

theorem startMove_of_start {inputSize outputSize : Nat}
    (h : net.start programs ctx inputSize outputSize = some next) : StartMove programs ctx net next := by
  unfold start at h
  split at h
  · cases h
    exact .called ‹_›
  · cases h
    exact .aborted ‹_›
  · cases h
    exact .joined ‹_›
  · split at h
    · cases h
      exact .begun inputSize outputSize ‹_› ‹_› ‹_›
    · cases h

/-- No fault has come up so far. -/
structure Going (net : Network) : Prop where
  aborted : net.aborted = none
  fault : net.fault = none
  waiting : net.waiting = []
  starting : net.starting = none

/-- What one move of waiting can be. -/
inductive Waited (net : Network) : Network → Prop
  | status {m : Member} {code : Nat} {owned : List Handle} (hgoing : net.Going)
      (hm : net.members[net.statuses.length]? = some m) (htask : m.task = .ended ⟨.ok code, owned⟩) :
    Waited net { net with statuses := net.statuses ++ [code] }
  | fault {m : Member} {fault : Fault} {owned : List Handle} (hgoing : net.Going)
      (hm : net.members[net.statuses.length]? = some m) (htask : m.task = .ended ⟨.error fault, owned⟩) :
    Waited net { net with fault := some fault }
  | relay (hgoing : net.Going) : Waited net { net with relaysSeen := net.relaysSeen + 1 }
  | finished (hgoing : net.Going) (hseen : net.members[net.statuses.length]? = none) :
    Waited net { net with isOver := true }
  | stopped (hfault : net.aborted ≠ none ∨ net.fault ≠ none) : Waited net { net with isOver := true }

theorem waited_of_wait (h : net.wait = some next) : net.Waited next := by
  unfold wait at h
  split at h
  · rename_i haborted hfault
    split at h
    · cases h
    rename_i hstarted
    have hgoing : net.Going := by
      simp only [Bool.or_eq_true, Bool.not_eq_true', not_or, Bool.not_eq_false, List.isEmpty_iff,
        Option.not_isSome_iff_eq_none] at hstarted
      exact ⟨haborted, hfault, hstarted.1, hstarted.2⟩
    split at h
    · rename_i m hm
      split at h
      · cases h
      · rename_i code owned htask
        cases h
        exact .status hgoing hm htask
      · rename_i fault owned htask
        cases h
        exact .fault hgoing hm htask
    · rename_i hseen
      split at h
      · split at h
        · cases h
          exact .relay hgoing
        · cases h
      · cases leave_cases h
        exact .finished hgoing hseen
  · rename_i hnot
    cases leave_cases h
    refine .stopped ?_
    by_contra hnone
    rw [not_or, not_not, not_not] at hnone
    exact hnot hnone.1 hnone.2

/-! ## Ended stages stay as they are -/

/-- A stage that has ended is still there, and as it was. -/
structure KeepsEnded (net next : Network) : Prop where
  member : ∀ (i : Nat) (m : Member) (e : StageEnd), net.members[i]? = some m → m.task = .ended e →
    ∃ m', next.members[i]? = some m' ∧ m'.task = .ended e

theorem keepsEnded_of_eq (h : next.members = net.members) : net.KeepsEnded next := by
  refine ⟨fun i m e hm he => ⟨m, ?_, he⟩⟩
  rw [h]
  exact hm

theorem join_keepsEnded (m : Member) : net.KeepsEnded (net.join m) := by
  refine ⟨fun i n e hn he => ⟨n, ?_, he⟩⟩
  have hi := (List.getElem?_eq_some_iff.1 hn).1
  exact (List.getElem?_append_left hi).trans hn

theorem start_keepsEnded {inputSize outputSize : Nat}
    (h : net.start programs ctx inputSize outputSize = some next) : net.KeepsEnded next := by
  cases startMove_of_start h with
  | called hstarting => exact keepsEnded_of_eq rfl
  | aborted hstarting => exact keepsEnded_of_eq rfl
  | joined hstarting => exact join_keepsEnded _
  | begun inputSize outputSize hstarting haborted hwaiting => exact keepsEnded_of_eq rfl

theorem stage_keepsEnded {i wish : Nat} (h : net.step programs ctx (.stage i wish) = some next) :
    net.KeepsEnded next := by
  obtain ⟨m, m', world, hm, hstep, rfl⟩ := stage_cases h
  refine ⟨fun j n e hn he => ?_⟩
  by_cases hj : i = j
  · subst hj
    rw [hm] at hn
    cases hn
    -- There is no move after the end.
    simp [Member.step, he] at hstep
  · exact ⟨n, (List.getElem?_set_ne hj).trans hn, he⟩

/-- A relay changes nothing about what the stages do. -/
theorem relay_keepsTask {i wish : Nat} (h : net.step programs ctx (.relay i wish) = some next) {j : Nat} {n : Member}
    (hn : net.members[j]? = some n) : ∃ n', next.members[j]? = some n' ∧ n'.task = n.task := by
  obtain ⟨c, before, after, r, -, hbefore, hafter, -, rfl⟩ := relay_cases h
  have hlength := (List.getElem?_eq_some_iff.1 hafter).1
  by_cases hj : i + 1 = j
  · subst hj
    rw [hafter] at hn
    cases hn
    refine ⟨_, List.getElem?_set_self ?_, rfl⟩
    rw [List.length_set]
    exact hlength
  · rw [List.getElem?_set_ne hj]
    by_cases hi : i = j
    · subst hi
      rw [hbefore] at hn
      cases hn
      exact ⟨_, List.getElem?_set_self (by omega), rfl⟩
    · exact ⟨n, (List.getElem?_set_ne hi).trans hn, rfl⟩

theorem relay_keepsEnded {i wish : Nat} (h : net.step programs ctx (.relay i wish) = some next) :
    net.KeepsEnded next := by
  refine ⟨fun j n e hn he => ?_⟩
  obtain ⟨n', hn', htask⟩ := relay_keepsTask h hn
  exact ⟨n', hn', htask.trans he⟩

/-! ## What was seen -/

/-- What the interpreter has noted is what the stages came to. -/
structure Seen (net : Network) : Prop where
  statuses : ∀ (i code : Nat), net.statuses[i]? = some code →
    ∃ m owned, net.members[i]? = some m ∧ m.task = .ended ⟨.ok code, owned⟩
  fault : ∀ fault, net.fault = some fault →
    ∃ m owned, net.members[net.statuses.length]? = some m ∧ m.task = .ended ⟨.error fault, owned⟩
  faultOnce : net.fault ≠ none → net.waiting = [] ∧ net.starting = none
  isOver : net.isOver = true → net.aborted ≠ none ∨ net.fault ≠ none ∨
    net.waiting = [] ∧ net.starting = none ∧ net.members.length = net.statuses.length

theorem Seen.of_same (h : net.Seen) (hkeeps : net.KeepsEnded next) (hstatuses : next.statuses = net.statuses)
    (hfault : next.fault = net.fault) (hfaultOnce : net.fault ≠ none → next.waiting = [] ∧ next.starting = none)
    (hover : next.isOver = true → next.aborted ≠ none ∨ net.fault ≠ none ∨
      next.waiting = [] ∧ next.starting = none ∧ next.members.length = net.statuses.length) : next.Seen := by
  refine ⟨?_, ?_, ?_, ?_⟩
  · rw [hstatuses]
    intro i code hcode
    obtain ⟨m, owned, hm, htask⟩ := h.statuses i code hcode
    obtain ⟨m', hm', htask'⟩ := hkeeps.member i m _ hm htask
    exact ⟨m', owned, hm', htask'⟩
  · rw [hstatuses, hfault]
    intro fault hsome
    obtain ⟨m, owned, hm, htask⟩ := h.fault fault hsome
    obtain ⟨m', hm', htask'⟩ := hkeeps.member _ m _ hm htask
    exact ⟨m', owned, hm', htask'⟩
  · rw [hfault]
    exact hfaultOnce
  · rw [hfault, hstatuses]
    exact hover

/-- A move that neither starts nor waits changes only the members and the world. -/
theorem Seen.of_members (h : net.Seen) {world : World} {members : List Member} {carriers : List Carrier}
    (hkeeps : net.KeepsEnded { net with world, members, carriers }) (hlength : members.length = net.members.length) :
    Seen { net with world, members, carriers } := by
  refine h.of_same hkeeps rfl rfl h.faultOnce ?_
  intro hover
  obtain haborted | hfault | ⟨hwaiting, hstarting, hseen⟩ := h.isOver hover
  · exact .inl haborted
  · exact .inr (.inl hfault)
  · exact .inr (.inr ⟨hwaiting, hstarting, hlength.trans hseen⟩)

theorem Seen.start {inputSize outputSize : Nat} (h : net.Seen)
    (hstep : net.start programs ctx inputSize outputSize = some next) : next.Seen := by
  have hmore : ¬ (net.waiting = [] ∧ net.starting = none) := by
    rintro ⟨hwaiting, hstarting⟩
    simp [Network.start, hwaiting, hstarting] at hstep
  have hfault : ¬ net.fault ≠ none := fun hfault => hmore (h.faultOnce hfault)
  have hsame : next.statuses = net.statuses ∧ next.fault = net.fault ∧ next.isOver = net.isOver ∧
      (net.aborted ≠ none → next.aborted ≠ none) := by
    cases startMove_of_start hstep with
    | called hstarting => exact ⟨rfl, rfl, rfl, id⟩
    | aborted hstarting => exact ⟨rfl, rfl, rfl, fun _ => Option.some_ne_none _⟩
    | joined hstarting => exact ⟨rfl, rfl, rfl, id⟩
    | begun inputSize outputSize hstarting haborted hwaiting => exact ⟨rfl, rfl, rfl, id⟩
  obtain ⟨hstatuses, hfaults, hisOver, haborted⟩ := hsame
  refine h.of_same (start_keepsEnded hstep) hstatuses hfaults (fun hsome => absurd hsome hfault) ?_
  rw [hisOver]
  intro hover
  obtain hsome | hsome | ⟨hwaiting, hstarting, -⟩ := h.isOver hover
  · exact .inl (haborted hsome)
  · exact absurd hsome hfault
  · exact absurd ⟨hwaiting, hstarting⟩ hmore

theorem Seen.wait (h : net.Seen) (hstep : net.wait = some next) : next.Seen := by
  cases waited_of_wait hstep with
  | @status m code owned hgoing hm htask =>
    refine ⟨?_, ?_, fun hfault => absurd hgoing.fault hfault, ?_⟩
    · intro i code' hcode
      rw [List.getElem?_append] at hcode
      split at hcode
      · exact h.statuses i code' hcode
      · have hi := (List.getElem?_eq_some_iff.1 hcode).1
        rw [List.length_singleton] at hi
        obtain rfl : i = net.statuses.length := by omega
        rw [Nat.sub_self] at hcode
        cases hcode
        exact ⟨m, owned, hm, htask⟩
    · intro fault hfault
      rw [hgoing.fault] at hfault
      cases hfault
    · intro hover
      obtain hsome | hsome | ⟨-, -, hseen⟩ := h.isOver hover
      · exact absurd hgoing.aborted hsome
      · exact absurd hgoing.fault hsome
      · have hbound := (List.getElem?_eq_some_iff.1 hm).1
        omega
  | @fault m fault owned hgoing hm htask =>
    refine ⟨h.statuses, ?_, fun _ => ⟨hgoing.waiting, hgoing.starting⟩, fun _ => .inr (.inl (Option.some_ne_none _))⟩
    rintro fault ⟨⟩
    exact ⟨m, owned, hm, htask⟩
  | relay hgoing => exact ⟨h.statuses, h.fault, h.faultOnce, h.isOver⟩
  | finished hgoing hseen =>
    refine ⟨h.statuses, h.fault, h.faultOnce, fun _ => .inr (.inr ⟨hgoing.waiting, hgoing.starting, ?_⟩)⟩
    apply Nat.le_antisymm (List.getElem?_eq_none_iff.1 hseen)
    -- A status that was noted is that of a stage.
    by_contra hless
    have hlt : net.members.length < net.statuses.length := Nat.lt_of_not_le hless
    obtain ⟨m, -, hm, -⟩ := h.statuses _ _ (List.getElem?_eq_getElem hlt)
    exact absurd (List.getElem?_eq_some_iff.1 hm).1 (Nat.lt_irrefl _)
  | stopped hfault =>
    refine ⟨h.statuses, h.fault, h.faultOnce, fun _ => ?_⟩
    exact hfault.elim .inl fun hsome => .inr (.inl hsome)

/-- One move keeps what was seen. -/
theorem Seen.step (h : net.Seen) {move : Move} (hstep : net.step programs ctx move = some next) : next.Seen := by
  cases move with
  | start inputSize outputSize => exact h.start hstep
  | stage i wish =>
    have hkeeps := stage_keepsEnded hstep
    obtain ⟨m, m', world, -, -, rfl⟩ := stage_cases hstep
    exact h.of_members hkeeps List.length_set
  | relay i wish =>
    have hkeeps := relay_keepsEnded hstep
    obtain ⟨c, before, after, r, -, -, -, -, rfl⟩ := relay_cases hstep
    exact h.of_members hkeeps (by rw [List.length_set, List.length_set])
  | wait => exact h.wait hstep

/-- What was seen is true along every run. -/
theorem Reachable.seen {w : World} (h : Reachable programs ctx p w net) : net.Seen := by
  induction h with
  | ofPipeline =>
    refine ⟨?_, ?_, ?_, ?_⟩
    · intro i code hcode
      cases hcode
    · intro fault hfault
      cases hfault
    · exact fun hfault => absurd rfl hfault
    · intro hover
      cases hover
  | step move hnet hstep ih => exact ih.step hstep

end Network

end Conch
