-- SUMMARY: The invariant of running pipelines, kept by every move and so true of all that can be reached.
import Mathlib.Data.List.TakeWhile
import Conch.Proofs.Pipeline.Pipes
import Conch.Proofs.Pipeline.Starting

/-!
# The invariant of a network

Whatever order the moves are made in, the stages that were started stand in the
order of the pipeline, each with the pipes of its place, every relay keeps its
link, and the pool has one task for each built-in stage and one for each relay.
Nothing is ever put into the pipe before the first stage, and nothing is taken
out of the pipe behind the newest one, which has no relay yet.

`Network.Invariant` says this of a network, `Invariant.step` shows that one move
keeps it, and `Reachable.invariant` that it holds along every run.
-/

namespace Conch

/-! ## Places -/

namespace Member

/-- A stage has the pipes of its place in a pipeline: one at its input if it is a process without
    a file in place of it, and one at its output unless it is the last one or never ran. -/
structure Wired (p : Pipeline) (i : Nat) (m : Member) : Prop where
  in_range : i < p.stages.length
  input_iff : m.input.isSome = true ↔
    m.role = .process ∧ ∀ s, p.stages[i]? = some s → s.stdin? = none
  output_iff : m.output.isSome = true ↔ m.role ≠ .absent ∧ i + 1 < p.stages.length

theorem Wired.congr {p : Pipeline} {i : Nat} {m m' : Member} (h : m.Wired p i)
    (hrole : m'.role = m.role) (hinput : m'.input.isSome = m.input.isSome)
    (houtput : m'.output.isSome = m.output.isSome) : m'.Wired p i := by
  refine ⟨h.in_range, ?_, ?_⟩
  · rw [hinput, hrole]
    exact h.input_iff
  · rw [houtput, hrole]
    exact h.output_iff

theorem Moved.wired {p : Pipeline} {i : Nat} {m m' : Member} (h : m.Moved m') (hm : m.Wired p i) :
    m'.Wired p i :=
  hm.congr h.role (optionRel_isSome h.input) (optionRel_isSome h.output)

/-- A relay reads from the output of a stage. -/
theorem Sound.withOutput {m : Member} (hm : m.Sound) {output : Option Pipe}
    (h : Option.Rel Pipe.ReaderMoved m.output output) : Sound { m with output } := by
  refine ⟨?_, hm.input_reader, hm.absent_ended⟩
  rintro p' rfl
  obtain ⟨p, hp, hmoved⟩ := optionRel_some_right h
  rw [hmoved.writerOpen]
  exact hm.output_writer p hp

/-- A relay writes to the input of a stage. -/
theorem Sound.withInput {m : Member} (hm : m.Sound) {input : Option Pipe}
    (h : Option.Rel Pipe.WriterMoved m.input input) : Sound { m with input } := by
  refine ⟨hm.output_writer, ?_, hm.absent_ended⟩
  rintro hended p' rfl
  obtain ⟨p, hp, hmoved⟩ := optionRel_some_right h
  rw [hmoved.readerOpen]
  exact hm.input_reader hended p hp

namespace Fresh

variable {programs : Programs} {isFirst isLast : Bool} {s : Stage} {m : Member}

theorem sound (h : m.Fresh programs isFirst isLast s) : m.Sound := by
  cases h with
  | builtin job size =>
    refine ⟨?_, fun hended => (by cases hended), fun hrole => (by cases hrole)⟩
    intro p hp
    cases isLast with
    | true => cases hp
    | false =>
      cases hp
      rfl
  | absent status owned =>
    exact ⟨fun p hp => (by cases hp), fun _ p hp => (by cases hp), fun _ => rfl⟩
  | process owned inputSize outputSize hruns hstdin hstdout =>
    refine ⟨?_, fun hended => (by cases hended), fun hrole => (by cases hrole)⟩
    intro p hp
    dsimp only at hp
    split at hp
    · cases hp
    · cases hp
      rfl

/-- A new stage has the pipes of its place. -/
theorem wired {p : Pipeline} {i : Nat} (hs : p.stages[i]? = some s)
    (hlast : isLast = true ↔ p.stages.length ≤ i + 1) (h : m.Fresh programs isFirst isLast s) :
    m.Wired p i := by
  have hrange : i < p.stages.length := (List.getElem?_eq_some_iff.1 hs).1
  have hstage : (∀ s', p.stages[i]? = some s' → s'.stdin? = none) ↔ s.stdin? = none := by
    rw [hs]
    exact ⟨fun hall => hall s rfl, fun hnone _ hs' => by cases hs'; exact hnone⟩
  refine ⟨hrange, ?_, ?_⟩
  · rw [hstage]
    cases h with
    | builtin job size => simp
    | absent status owned => simp [Network.absent]
    | process owned inputSize outputSize hruns hstdin hstdout =>
      cases hfile : s.stdin? with
      | none => simp
      | some name => simp
  · have hmore : i + 1 < p.stages.length ↔ isLast = false := by
      rw [← Bool.not_eq_true, hlast]
      omega
    have hfile : isLast = false → s.stdout? = none := by
      intro hnot
      have hbefore := hmore.2 hnot
      refine p.placed.2 s (List.mem_iff_getElem?.2 ⟨i, ?_⟩)
      rw [List.getElem?_dropLast, if_pos (by omega), hs]
    rw [hmore]
    cases h with
    | builtin job size => cases isLast <;> simp
    | absent status owned => simp [Network.absent]
    | process owned inputSize outputSize hruns hstdin hstdout =>
      cases isLast with
      | true => simp
      | false => simp [hfile rfl]

/-- The pipe at the input of a new stage has not been used, and has a writer unless the stage is the
    first one. -/
theorem input_new (h : m.Fresh programs isFirst isLast s) {t : Pipe} (ht : m.input = some t) :
    t.allPut = [] ∧ t.writerOpen = !isFirst := by
  cases h with
  | builtin job size => cases ht
  | absent status owned => cases ht
  | process owned inputSize outputSize hruns hstdin hstdout =>
    dsimp only at ht
    split at ht
    · cases ht
    · cases ht
      cases isFirst with
      | true => exact ⟨rfl, rfl⟩
      | false => exact ⟨rfl, rfl⟩

/-- The pipe at the output of a new stage has not been used, and can be read. -/
theorem output_new (h : m.Fresh programs isFirst isLast s) {t : Pipe} (ht : m.output = some t) :
    t.allTaken = [] ∧ t.readerOpen = true := by
  cases h with
  | builtin job size =>
    dsimp only at ht
    split at ht
    · cases ht
    · cases ht
      exact ⟨rfl, rfl⟩
  | absent status owned => cases ht
  | process owned inputSize outputSize hruns hstdin hstdout =>
    dsimp only at ht
    split at ht
    · cases ht
    · cases ht
      exact ⟨rfl, rfl⟩

end Fresh

end Member

/-! ## The invariant -/

/-- The pool was given one task for each built-in stage and one for each relay. -/
structure Pooled (roles : List Role) (relays : Nat) (tasks : List PoolTask) : Prop where
  length_eq : tasks.length = roles.count .builtin + relays
  mem_stage : ∀ i, .stage i ∈ tasks ↔ roles[i]? = some .builtin
  mem_relay : ∀ i, .relay i ∈ tasks ↔ i < relays

theorem Pooled.nil : Pooled [] 0 [] :=
  ⟨rfl, fun i => by simp, fun i => by simp⟩

/-- A stage is handed to the pool if it is built in. -/
theorem Pooled.stage {roles : List Role} {relays : Nat} {tasks : List PoolTask} (h : Pooled roles relays tasks)
    (role : Role) :
    Pooled (roles ++ [role]) relays
      (tasks ++ if role = .builtin then [.stage roles.length] else []) := by
  refine ⟨?_, ?_, ?_⟩
  · rw [List.length_append, List.count_append, h.length_eq]
    cases role with
    | builtin =>
      simp only [↓reduceIte, List.length_singleton, List.count_singleton_self]
      omega
    | process => simp
    | absent => simp
  · intro i
    rw [List.mem_append, h.mem_stage, List.getElem?_append]
    by_cases hi : i < roles.length
    · rw [if_pos hi]
      refine ⟨?_, .inl⟩
      rintro (hold | hnew)
      · exact hold
      · split at hnew
        · cases List.mem_singleton.1 hnew
          omega
        · cases hnew
    · rw [if_neg hi, List.getElem?_eq_none (Nat.le_of_not_lt hi)]
      cases role with
      | builtin =>
        simp only [↓reduceIte, List.mem_singleton, PoolTask.stage.injEq, List.getElem?_singleton]
        grind
      | process => simp [List.getElem?_singleton]
      | absent => simp [List.getElem?_singleton]
  · intro i
    rw [List.mem_append, h.mem_relay]
    refine ⟨?_, .inl⟩
    rintro (hold | hnew)
    · exact hold
    · split at hnew
      · cases List.mem_singleton.1 hnew
      · cases hnew

/-- Every relay is handed to the pool. -/
theorem Pooled.relay {roles : List Role} {relays : Nat} {tasks : List PoolTask} (h : Pooled roles relays tasks) :
    Pooled roles (relays + 1) (tasks ++ [.relay relays]) := by
  refine ⟨?_, ?_, ?_⟩
  · rw [List.length_append, h.length_eq, List.length_singleton, Nat.add_assoc]
  · intro i
    rw [List.mem_append, h.mem_stage]
    exact ⟨fun hmem => hmem.resolve_right (by simp), .inl⟩
  · intro i
    rw [List.mem_append, h.mem_relay]
    simp only [List.mem_singleton, PoolTask.relay.injEq]
    omega

namespace Network

/-- The pipe at the input of a stage. -/
def inputOf (net : Network) (i : Nat) : Option Pipe := net.members[i]?.bind Member.input

/-- The pipe at the output of a stage. -/
def outputOf (net : Network) (i : Nat) : Option Pipe := net.members[i]?.bind Member.output

theorem inputOf_eq {net : Network} {i : Nat} {m : Member} (hm : net.members[i]? = some m) :
    net.inputOf i = m.input := by
  rw [inputOf, hm]
  rfl

theorem outputOf_eq {net : Network} {i : Nat} {m : Member} (hm : net.members[i]? = some m) :
    net.outputOf i = m.output := by
  rw [outputOf, hm]
  rfl

/-- What the stages were started as. -/
def roles (net : Network) : List Role := net.members.map Member.role

/-- A stage that is being started will be a new member at the next place. -/
def StartsNext (programs : Programs) (p : Pipeline) (net : Network) (job : Job Started) : Prop :=
  ∃ s, p.stages[net.members.length]? = some s ∧
    job.wp fun result => ∀ m, result = .ok m →
      m.Fresh programs net.members.isEmpty net.waiting.isEmpty s

/-- What holds in every network that a pipeline can come to. -/
structure Invariant (programs : Programs) (p : Pipeline) (net : Network) : Prop where
  workers : net.workers = 2 * p.stages.length
  waiting : net.aborted = none →
    net.waiting = p.stages.drop (net.members.length + net.starting.toList.length)
  starting : ∀ job, net.starting = some job → net.aborted = none ∧ net.StartsNext programs p job
  members : ∀ (i : Nat) (m : Member), net.members[i]? = some m → m.Sound ∧ m.Wired p i
  first : ∀ t, net.inputOf 0 = some t → t.allPut = [] ∧ t.writerOpen = false
  newest : ∀ s, net.outputOf (net.members.length - 1) = some s → s.allTaken = [] ∧ s.readerOpen = true
  carriers : net.carriers.length = net.members.length - 1
  links : ∀ (i : Nat) (c : Carrier), net.carriers[i]? = some c → Link (net.outputOf i) c (net.inputOf (i + 1))
  pooled : Pooled net.roles net.carriers.length net.tasks

theorem ofPipeline_invariant (programs : Programs) (p : Pipeline) (w : World) :
    (ofPipeline p w).Invariant programs p where
  workers := rfl
  waiting _ := rfl
  starting job hjob := by cases hjob
  members i m hm := by cases hm
  first t ht := by cases ht
  newest s hs := by cases hs
  carriers := rfl
  links i c hc := by cases hc
  pooled := .nil

/-! ## Replacing a member -/

section Replacing

variable {members : List Member} {i : Nat} {m m' : Member} {f : Member → Option Pipe}

theorem bind_set_self (hm : members[i]? = some m) : (members.set i m')[i]?.bind f = f m' := by
  rw [List.getElem?_set_self (List.getElem?_eq_some_iff.1 hm).1]
  rfl

theorem bind_set_ne {j : Nat} (h : i ≠ j) : (members.set i m')[j]?.bind f = members[j]?.bind f := by
  rw [List.getElem?_set_ne h]

theorem bind_set_of_eq (m' : Member) (hm : members[i]? = some m) (hf : f m' = f m) (j : Nat) :
    (members.set i m')[j]?.bind f = members[j]?.bind f := by
  by_cases h : i = j
  · subst h
    rw [bind_set_self hm, hm]
    exact hf
  · exact bind_set_ne h

theorem map_role_set (m' : Member) (hm : members[i]? = some m) (hrole : m'.role = m.role) :
    (members.set i m').map Member.role = members.map Member.role := by
  apply List.ext_getElem?
  intro j
  rw [List.getElem?_map, List.getElem?_map]
  by_cases h : i = j
  · subst h
    rw [List.getElem?_set_self (List.getElem?_eq_some_iff.1 hm).1, hm]
    exact congrArg some hrole
  · rw [List.getElem?_set_ne h]

/-- What holds of every member still does when one is replaced by another for which it holds. -/
theorem forall_set {P : Nat → Member → Prop} (hall : ∀ j n, members[j]? = some n → P j n) (hm' : P i m') :
    ∀ j n, (members.set i m')[j]? = some n → P j n := by
  intro j n hn
  by_cases h : i = j
  · subst h
    rw [List.getElem?_set, if_pos rfl] at hn
    split at hn
    · cases hn
      exact hm'
    · cases hn
  · rw [List.getElem?_set_ne h] at hn
    exact hall j n hn

end Replacing

/-! ## Adding a member -/

section Adding

variable (net : Network) (m : Member)

theorem join_length : (net.join m).members.length = net.members.length + 1 :=
  List.length_append

theorem join_roles : (net.join m).roles = net.roles ++ [m.role] :=
  List.map_append

theorem join_inputOf {i : Nat} (h : i < net.members.length) : (net.join m).inputOf i = net.inputOf i :=
  congrArg (·.bind Member.input) (List.getElem?_append_left h)

theorem join_outputOf {i : Nat} (h : i < net.members.length) : (net.join m).outputOf i = net.outputOf i :=
  congrArg (·.bind Member.output) (List.getElem?_append_left h)

theorem join_inputOf_new : (net.join m).inputOf net.members.length = m.input :=
  congrArg (·.bind Member.input) List.getElem?_concat_length

theorem join_outputOf_new : (net.join m).outputOf net.members.length = m.output :=
  congrArg (·.bind Member.output) List.getElem?_concat_length

/-- What holds of every member still does when one is added for which it holds. -/
theorem forall_join {P : Nat → Member → Prop}
    (hall : ∀ (i : Nat) (n : Member), net.members[i]? = some n → P i n) (hm : P net.members.length m) :
    ∀ (i : Nat) (n : Member), (net.join m).members[i]? = some n → P i n := by
  intro i n hn
  have hn' : (net.members ++ [m])[i]? = some n := hn
  by_cases hi : i < net.members.length
  · rw [List.getElem?_append_left hi] at hn'
    exact hall i n hn'
  · have hbound := (List.getElem?_eq_some_iff.1 hn).1
    rw [join_length] at hbound
    obtain rfl : i = net.members.length := by omega
    rw [List.getElem?_concat_length] at hn'
    cases hn'
    exact hm

end Adding

/-! ## What the moves are -/

variable {programs : Programs} {ctx : Context} {p : Pipeline} {net next : Network}

theorem stage_cases {i wish : Nat} (h : net.step programs ctx (.stage i wish) = some next) :
    ∃ m m' world, net.members[i]? = some m ∧ m.step wish net.world = some (m', world) ∧
      next = { net with world, members := net.members.set i m' } := by
  obtain ⟨m, hm, h⟩ := Option.bind_eq_some_iff.1 h
  split at h
  · cases h
  · obtain ⟨⟨m', world⟩, hstep, hnext⟩ := Option.bind_eq_some_iff.1 h
    exact ⟨m, m', world, hm, hstep, (Option.some.inj hnext).symm⟩

theorem relay_cases {i wish : Nat} (h : net.step programs ctx (.relay i wish) = some next) :
    ∃ c before after r, net.carriers[i]? = some c ∧ net.members[i]? = some before ∧
      net.members[i + 1]? = some after ∧ c.step wish before.output after.input = some r ∧
      next = { net with
        members := (net.members.set i { before with output := r.2.1 }).set (i + 1)
          { after with input := r.2.2 }
        carriers := net.carriers.set i r.1 } := by
  obtain ⟨c, hc, h⟩ := Option.bind_eq_some_iff.1 h
  obtain ⟨before, hbefore, h⟩ := Option.bind_eq_some_iff.1 h
  obtain ⟨after, hafter, h⟩ := Option.bind_eq_some_iff.1 h
  split at h
  · cases h
  · obtain ⟨r, hstep, hnext⟩ := Option.bind_eq_some_iff.1 h
    exact ⟨c, before, after, r, hc, hbefore, hafter, hstep, (Option.some.inj hnext).symm⟩

theorem leave_cases (h : net.leave = some next) : next = { net with isOver := true } := by
  unfold leave at h
  split at h
  · exact (Option.some.inj h).symm
  · cases h

/-- Waiting only changes what the interpreter has seen. -/
theorem wait_cases (h : net.wait = some next) :
    ∃ statuses relaysSeen fault isOver, next = { net with statuses, relaysSeen, fault, isOver } := by
  unfold wait at h
  split at h
  · split at h
    · cases h
    split at h
    · split at h
      · cases h
      · exact ⟨_, _, _, _, (Option.some.inj h).symm⟩
      · exact ⟨_, _, _, _, (Option.some.inj h).symm⟩
    split at h
    · split at h
      · exact ⟨_, _, _, _, (Option.some.inj h).symm⟩
      · cases h
    · exact ⟨_, _, _, _, leave_cases h⟩
  · exact ⟨_, _, _, _, leave_cases h⟩

/-! ## What the moves keep -/

namespace Invariant

/-- The invariant is kept when no stage is started and what is done to the pipes keeps the links. -/
theorem of_members (h : net.Invariant programs p) (world : World) {members : List Member}
    {carriers : List Carrier} (hlength : members.length = net.members.length)
    (hroles : members.map Member.role = net.roles) (hcarriers : carriers.length = net.carriers.length)
    (hmembers : ∀ (i : Nat) (m : Member), members[i]? = some m → m.Sound ∧ m.Wired p i)
    (hfirst : Option.Rel Pipe.ReaderMoved (net.inputOf 0) (members[0]?.bind Member.input))
    (hnewest : Option.Rel Pipe.WriterMoved (net.outputOf (net.members.length - 1))
      (members[net.members.length - 1]?.bind Member.output))
    (hlinks : ∀ (i : Nat) (c : Carrier), carriers[i]? = some c →
      Link (members[i]?.bind Member.output) c (members[i + 1]?.bind Member.input)) :
    Invariant programs p { net with world, members, carriers } := by
  have hempty : members.isEmpty = net.members.isEmpty := by
    rw [Bool.eq_iff_iff, List.isEmpty_iff_length_eq_zero, List.isEmpty_iff_length_eq_zero, hlength]
  refine ⟨h.workers, ?_, ?_, hmembers, ?_, ?_, ?_, hlinks, ?_⟩
  · intro haborted
    dsimp only
    rw [hlength]
    exact h.waiting haborted
  · intro job hjob
    obtain ⟨haborted, s, hs, hwp⟩ := h.starting job hjob
    refine ⟨haborted, s, ?_, ?_⟩
    · dsimp only
      rw [hlength]
      exact hs
    · dsimp only
      rw [hempty]
      exact hwp
  · intro t' ht'
    rw [show members[0]?.bind Member.input = some t' from ht'] at hfirst
    obtain ⟨t, ht, hmoved⟩ := optionRel_some_right hfirst
    rw [hmoved.allPut, hmoved.writerOpen]
    exact h.first t ht
  · intro s' hs'
    dsimp only [outputOf] at hs'
    rw [hlength] at hs'
    rw [hs'] at hnewest
    obtain ⟨s, hs, hmoved⟩ := optionRel_some_right hnewest
    rw [hmoved.allTaken, hmoved.readerOpen]
    exact h.newest s hs
  · dsimp only
    rw [hcarriers, hlength]
    exact h.carriers
  · dsimp only [roles]
    rw [hroles, hcarriers]
    exact h.pooled

theorem stage {i wish : Nat} (h : net.Invariant programs p)
    (hstep : net.step programs ctx (.stage i wish) = some next) : next.Invariant programs p := by
  obtain ⟨m, m', world, hm, hmove, rfl⟩ := stage_cases hstep
  obtain ⟨hsound, hwired⟩ := h.members i m hm
  have hmoved := (Member.stepped_of_step hmove).moved hsound
  -- Each pipe is at most read by the stage after it and written by the stage before it.
  have hinput : ∀ j, Option.Rel Pipe.ReaderMoved (net.inputOf j)
      ((net.members.set i m')[j]?.bind Member.input) := by
    intro j
    by_cases hj : i = j
    · subst hj
      rw [bind_set_self hm, inputOf_eq hm]
      exact hmoved.input
    · rw [bind_set_ne hj]
      exact optionRel_refl Pipe.ReaderMoved.refl _
  have houtput : ∀ j, Option.Rel Pipe.WriterMoved (net.outputOf j)
      ((net.members.set i m')[j]?.bind Member.output) := by
    intro j
    by_cases hj : i = j
    · subst hj
      rw [bind_set_self hm, outputOf_eq hm]
      exact hmoved.output
    · rw [bind_set_ne hj]
      exact optionRel_refl Pipe.WriterMoved.refl _
  refine h.of_members world List.length_set (map_role_set m' hm hmoved.role) rfl ?_ (hinput 0) (houtput _) ?_
  · exact forall_set h.members ⟨hmoved.sound, hmoved.wired hwired⟩
  · intro j c hc
    exact (h.links j c hc).of_moved (houtput j) (hinput (j + 1))

theorem link {i : Nat} {before after : Member} {c : Carrier} (h : net.Invariant programs p)
    (hbefore : net.members[i]? = some before) (hc : net.carriers[i]? = some c)
    (hafter : net.members[i + 1]? = some after) : Link before.output c after.input := by
  have hlink := h.links i c hc
  rw [outputOf_eq hbefore, inputOf_eq hafter] at hlink
  exact hlink

theorem relay {i wish : Nat} (h : net.Invariant programs p)
    (hstep : net.step programs ctx (.relay i wish) = some next) : next.Invariant programs p := by
  obtain ⟨c, before, after, ⟨c', source, target⟩, hc, hbefore, hafter, hmove, rfl⟩ := relay_cases hstep
  obtain ⟨hread, hwritten, hlink'⟩ := Carrier.step_advanced (h.link hbefore hc hafter) hmove
  dsimp only at hread hwritten hlink' ⊢
  obtain ⟨hbeforeSound, hbeforeWired⟩ := h.members i before hbefore
  obtain ⟨hafterSound, hafterWired⟩ := h.members (i + 1) after hafter
  have hafter' : (net.members.set i { before with output := source })[i + 1]? = some after := by
    rw [List.getElem?_set_ne (by omega)]
    exact hafter
  have hmore : i + 1 < net.members.length := (List.getElem?_eq_some_iff.1 hafter).1
  -- Only the pipe behind stage `i` and the one before stage `i + 1` have changed.
  have hinput : ∀ j, j ≠ i + 1 →
      ((net.members.set i { before with output := source }).set (i + 1)
        { after with input := target })[j]?.bind Member.input = net.inputOf j := by
    intro j hj
    rw [bind_set_ne (Ne.symm hj), bind_set_of_eq { before with output := source } hbefore rfl]
    rfl
  have houtput : ∀ j, j ≠ i →
      ((net.members.set i { before with output := source }).set (i + 1)
        { after with input := target })[j]?.bind Member.output = net.outputOf j := by
    intro j hj
    rw [bind_set_of_eq { after with input := target } hafter' rfl, bind_set_ne (Ne.symm hj)]
    rfl
  refine h.of_members net.world ?_ ?_ List.length_set ?_ ?_ ?_ ?_
  · rw [List.length_set, List.length_set]
  · rw [map_role_set { after with input := target } hafter' rfl,
      map_role_set { before with output := source } hbefore rfl]
    rfl
  · refine forall_set (forall_set h.members ⟨?_, ?_⟩) ⟨?_, ?_⟩
    · exact hbeforeSound.withOutput hread
    · exact hbeforeWired.congr rfl rfl (optionRel_isSome hread)
    · exact hafterSound.withInput hwritten
    · exact hafterWired.congr rfl (optionRel_isSome hwritten) rfl
  · rw [hinput 0 (by omega)]
    exact optionRel_refl Pipe.ReaderMoved.refl _
  · rw [houtput _ (by omega)]
    exact optionRel_refl Pipe.WriterMoved.refl _
  · intro j d hd
    by_cases hj : i = j
    · subst hj
      rw [List.getElem?_set_self (List.getElem?_eq_some_iff.1 hc).1] at hd
      cases hd
      rw [bind_set_of_eq { after with input := target } hafter' rfl, bind_set_self hbefore, bind_set_self hafter']
      exact hlink'
    · rw [List.getElem?_set_ne hj] at hd
      rw [houtput j (Ne.symm hj), hinput (j + 1) (by omega)]
      exact h.links j d hd

/-- A new relay, between the newest stage and one that has just been started. -/
theorem link_new (h : net.Invariant programs p) {m : Member} {isLast : Bool} {s : Stage}
    (hfresh : m.Fresh programs false isLast s) :
    Link (net.outputOf (net.members.length - 1)) {} m.input := by
  have htaken : takenFrom (net.outputOf (net.members.length - 1)) = [] := by
    cases hs : net.outputOf (net.members.length - 1) with
    | none => rfl
    | some s => exact (h.newest s hs).1
  have hput : putInto m.input = [] := by
    cases ht : m.input with
    | none => rfl
    | some t => exact (hfresh.input_new ht).1
  refine ⟨fun s hs => (h.newest s hs).2, fun t ht => (hfresh.input_new ht).2, ?_, fun _ => rfl, ?_⟩
  · rw [htaken, hput]
    rfl
  · intro hfinished
    cases hfinished

/-- With a stage behind the newest one, there is one more relay, and the others are as before. -/
theorem join_links (h : net.Invariant programs p) {m : Member} {isLast : Bool} {s : Stage}
    (hfresh : m.Fresh programs false isLast s) (hpos : 0 < net.members.length) :
    ∀ (i : Nat) (c : Carrier), (net.carriers ++ [({} : Carrier)])[i]? = some c →
      Link ((net.join m).outputOf i) c ((net.join m).inputOf (i + 1)) := by
  intro i c hc
  have hlength := h.carriers
  have hbound := (List.getElem?_eq_some_iff.1 hc).1
  rw [List.length_append, List.length_singleton] at hbound
  rw [join_outputOf net m (by omega)]
  by_cases hi : i < net.carriers.length
  · rw [List.getElem?_append_left hi] at hc
    rw [join_inputOf net m (by omega)]
    exact h.links i c hc
  · obtain rfl : i = net.carriers.length := by omega
    rw [List.getElem?_concat_length] at hc
    cases hc
    rw [hlength, Nat.sub_add_cancel hpos, join_inputOf_new]
    exact h.link_new hfresh

/-- A stage that has been started takes the next place, and a relay to it begins its work. -/
theorem join (h : net.Invariant programs p) {m : Member} (hstart : net.starting = some (.done (.ok m))) :
    (net.join m).Invariant programs p := by
  obtain ⟨haborted, s, hs, hwp⟩ := h.starting _ hstart
  have hfresh : m.Fresh programs net.members.isEmpty net.waiting.isEmpty s :=
    (Job.wp_done _ _).1 hwp m rfl
  have hwaiting : net.waiting = p.stages.drop (net.members.length + 1) := by
    rw [h.waiting haborted, hstart]
    rfl
  have hlast : net.waiting.isEmpty = true ↔ p.stages.length ≤ net.members.length + 1 := by
    rw [hwaiting, List.isEmpty_iff, List.drop_eq_nil_iff]
  have hmembers := net.forall_join m h.members ⟨hfresh.sound, hfresh.wired hs hlast⟩
  have hnewest : ∀ t, (net.join m).outputOf ((net.join m).members.length - 1) = some t →
      t.allTaken = [] ∧ t.readerOpen = true := by
    intro t ht
    rw [join_length, Nat.add_sub_cancel, join_outputOf_new] at ht
    exact hfresh.output_new ht
  have hpooled := h.pooled.stage m.role
  rw [show net.roles.length = net.members.length from List.length_map _] at hpooled
  have hwaiting' : (net.join m).waiting = p.stages.drop ((net.join m).members.length + 0) := by
    rw [join_length]
    exact hwaiting
  -- The first stage is not joined to anything.
  rcases Nat.eq_zero_or_pos net.members.length with hzero | hpos
  · have hcarriers : (net.join m).carriers = net.carriers := if_pos hzero
    have hnone : net.carriers.length = 0 := by
      rw [h.carriers, hzero]
    refine ⟨h.workers, fun _ => hwaiting', ?_, hmembers, ?_, hnewest, ?_, ?_, ?_⟩
    · rintro job ⟨⟩
    · intro t ht
      rw [← hzero, join_inputOf_new] at ht
      rw [List.isEmpty_iff.2 (List.eq_nil_of_length_eq_zero hzero)] at hfresh
      exact hfresh.input_new ht
    · rw [hcarriers, join_length, hnone, hzero]
    · intro i c hc
      rw [hcarriers, List.eq_nil_of_length_eq_zero hnone] at hc
      cases hc
    · rw [join_roles, hcarriers]
      show Pooled _ _ (_ ++ if net.members.length = 0 then [] else _)
      rw [if_pos hzero, List.append_nil]
      exact hpooled
  · have hne : net.members.length ≠ 0 := Nat.pos_iff_ne_zero.1 hpos
    have hcarriers : (net.join m).carriers = net.carriers ++ [({} : Carrier)] := if_neg hne
    have hlength : net.carriers.length = net.members.length - 1 := h.carriers
    refine ⟨h.workers, fun _ => hwaiting', ?_, hmembers, ?_, hnewest, ?_, ?_, ?_⟩
    · rintro job ⟨⟩
    · intro t ht
      rw [join_inputOf net m hpos] at ht
      exact h.first t ht
    · rw [hcarriers, join_length, List.length_append, hlength, List.length_singleton]
      omega
    · rw [show net.members.isEmpty = false by simpa using List.ne_nil_of_length_pos hpos] at hfresh
      rw [hcarriers]
      exact h.join_links hfresh hpos
    · rw [join_roles, hcarriers, List.length_append, List.length_singleton]
      show Pooled _ _ (_ ++ if net.members.length = 0 then [] else [.relay (net.members.length - 1)])
      rw [if_neg hne, ← hlength]
      exact hpooled.relay

theorem start {inputSize outputSize : Nat} (h : net.Invariant programs p)
    (hstep : net.start programs ctx inputSize outputSize = some next) : next.Invariant programs p := by
  unfold Network.start at hstep
  split at hstep
  · rename_i call resume hstart
    cases hstep
    obtain ⟨haborted, s, hs, hwp⟩ := h.starting _ hstart
    refine { h with waiting := ?_, starting := ?_ }
    · intro _
      rw [h.waiting haborted, hstart]
      rfl
    · rintro job ⟨⟩
      exact ⟨haborted, s, hs, (Job.wp_ask _ _ _).1 hwp _⟩
  · cases hstep
    refine { h with waiting := ?_, starting := ?_ }
    · rintro ⟨⟩
    · rintro job ⟨⟩
  · rename_i m hstart
    cases hstep
    exact h.join hstart
  · rename_i hstart
    split at hstep
    · rename_i s waiting haborted hwaiting
      cases hstep
      have hdrop : p.stages.drop net.members.length = s :: waiting := by
        rw [← hwaiting, h.waiting haborted, hstart]
        rfl
      refine { h with waiting := ?_, starting := ?_ }
      · intro _
        show waiting = p.stages.drop (net.members.length + 1)
        rw [← List.tail_drop, hdrop]
        rfl
      · rintro job ⟨⟩
        refine ⟨haborted, s, ?_, startStage_spec ..⟩
        show p.stages[net.members.length]? = some s
        rw [← List.head?_drop, hdrop]
        rfl
    · cases hstep

theorem wait (h : net.Invariant programs p) (hstep : net.wait = some next) : next.Invariant programs p := by
  obtain ⟨statuses, relaysSeen, fault, isOver, rfl⟩ := wait_cases hstep
  exact { h with }

/-- One move keeps the invariant. -/
theorem step (h : net.Invariant programs p) {move : Move}
    (hstep : net.step programs ctx move = some next) : next.Invariant programs p := by
  cases move with
  | start inputSize outputSize => exact h.start hstep
  | stage i wish => exact h.stage hstep
  | relay i wish => exact h.relay hstep
  | wait => exact h.wait hstep

end Invariant

/-! ## What follows for the pool -/

namespace Invariant

theorem members_le (h : net.Invariant programs p) : net.members.length ≤ p.stages.length := by
  rcases Nat.eq_zero_or_pos net.members.length with hzero | hpos
  · omega
  · have hlast : net.members.length - 1 < net.members.length := by omega
    have hrange := (h.members _ _ (List.getElem?_eq_getElem hlast)).2.in_range
    omega

/-- There are never more tasks than workers. -/
theorem tasks_le (h : net.Invariant programs p) : net.tasks.length ≤ net.workers := by
  have hbuiltin : net.roles.count .builtin ≤ net.members.length := by
    calc net.roles.count .builtin ≤ net.roles.length := List.count_le_length
      _ = net.members.length := List.length_map _
  have hmembers := h.members_le
  rw [h.pooled.length_eq, h.carriers, h.workers]
  omega

/-- Every task of the pool has a worker. -/
theorem hasWorker (h : net.Invariant programs p) {t : PoolTask} (ht : t ∈ net.tasks) :
    net.hasWorker t = true := by
  have hbefore : (net.tasks.takeWhile (· ≠ t)).length < net.tasks.length := by
    refine Nat.lt_of_le_of_ne (List.takeWhile_prefix _).length_le ?_
    intro hall
    have heq : net.tasks.takeWhile (· ≠ t) = net.tasks := (List.takeWhile_prefix _).eq_of_length hall
    have hne := List.takeWhile_eq_self_iff.1 heq t ht
    simp at hne
  have hbusy := List.length_filter_le (!net.isDone ·) (net.tasks.takeWhile (· ≠ t))
  have htasks := h.tasks_le
  unfold Network.hasWorker
  rw [Bool.and_eq_true, decide_eq_true_eq]
  exact ⟨List.contains_iff_mem.2 ht, by omega⟩

theorem relay_hasWorker (h : net.Invariant programs p) {i : Nat} {c : Carrier} (hc : net.carriers[i]? = some c) :
    net.hasWorker (.relay i) = true :=
  h.hasWorker ((h.pooled.mem_relay i).2 (List.getElem?_eq_some_iff.1 hc).1)

theorem stage_hasWorker (h : net.Invariant programs p) {i : Nat} {m : Member} (hm : net.members[i]? = some m)
    (hrole : m.role = .builtin) : net.hasWorker (.stage i) = true := by
  refine h.hasWorker ((h.pooled.mem_stage i).2 ?_)
  rw [roles, List.getElem?_map, hm, Option.map_some, hrole]

/-- A stage moves whenever its own move is possible. -/
theorem step_stage (h : net.Invariant programs p) (ctx : Context) (wish : Nat) {i : Nat} {m : Member}
    (hm : net.members[i]? = some m) :
    net.step programs ctx (.stage i wish) = (m.step wish net.world).map fun r =>
      { net with world := r.2, members := net.members.set i r.1 } := by
  have hworker : ¬ ((decide (m.role = .builtin) && !net.hasWorker (.stage i)) = true) := by
    simp only [Bool.and_eq_true, decide_eq_true_eq, Bool.not_eq_true', not_and]
    intro hrole
    rw [h.stage_hasWorker hm hrole]
    decide
  simp only [Network.step, hm, Option.bind_eq_bind, Option.bind_some, if_neg hworker]
  cases m.step wish net.world with
  | none => rfl
  | some r => rfl

/-- A relay moves whenever its own move is possible. -/
theorem step_relay (h : net.Invariant programs p) (ctx : Context) (wish : Nat) {i : Nat} {before after : Member}
    {c : Carrier} (hbefore : net.members[i]? = some before) (hc : net.carriers[i]? = some c)
    (hafter : net.members[i + 1]? = some after) :
    net.step programs ctx (.relay i wish) = (c.step wish before.output after.input).map fun r =>
      { net with
        members := (net.members.set i { before with output := r.2.1 }).set (i + 1)
          { after with input := r.2.2 }
        carriers := net.carriers.set i r.1 } := by
  have hworker : ¬ ((!net.hasWorker (.relay i)) = true) := by
    rw [h.relay_hasWorker hc]
    decide
  simp only [Network.step, hbefore, hc, hafter, Option.bind_eq_bind, Option.bind_some, if_neg hworker]
  cases c.step wish before.output after.input with
  | none => rfl
  | some r => rfl

/-- There is a relay between any two neighbours. -/
theorem carrier_exists (h : net.Invariant programs p) {i : Nat} (hi : i + 1 < net.members.length) :
    ∃ c, net.carriers[i]? = some c := by
  have hlength := h.carriers
  exact ⟨_, List.getElem?_eq_getElem (by omega)⟩

end Invariant

/-! ## Runs -/

/-- What a pipeline can come to by moves in any order and of any extent. -/
inductive Reachable (programs : Programs) (ctx : Context) (p : Pipeline) (w : World) : Network → Prop
  | ofPipeline : Reachable programs ctx p w (.ofPipeline p w)
  | step {net next : Network} (move : Move) (hnet : Reachable programs ctx p w net)
      (hstep : net.step programs ctx move = some next) : Reachable programs ctx p w next

/-- The invariant holds along every run. -/
theorem Reachable.invariant {w : World} (h : Reachable programs ctx p w net) : net.Invariant programs p := by
  induction h with
  | ofPipeline => exact ofPipeline_invariant programs p w
  | step move hnet hstep ih => exact ih.step hstep

/-- Make some moves one after the other. -/
def follow (programs : Programs) (ctx : Context) (net : Network) (moves : List Move) : Option Network :=
  moves.foldlM (step programs ctx) net

theorem Reachable.follow {w : World} {moves : List Move} (h : Reachable programs ctx p w net)
    (hmoves : net.follow programs ctx moves = some next) : Reachable programs ctx p w next := by
  induction moves generalizing net with
  | nil =>
    cases hmoves
    exact h
  | cons move moves ih =>
    rw [Network.follow, List.foldlM_cons] at hmoves
    obtain ⟨middle, hstep, hrest⟩ := Option.bind_eq_some_iff.1 hmoves
    exact ih (.step move h hstep) hrest

end Network

/-! ## A sample -/

namespace Sample

/-- A program that reads a number of times. -/
def reading : Nat → Job Ending
  | 0 => .done (.exited 0)
  | n + 1 => .ask (.read .pipe 10) fun _ => reading n

def programs : Programs := fun _ => some fun _ => reading 3

def world : World := { files := ⟨#[.dir 0 [("reader", 1)], .program "reader"]⟩ }

def context : Context := ⟨.rootPath, .rootPath, []⟩

/-- `echo hi | /reader` -/
def pipeline : Pipeline :=
  ⟨[⟨"echo", ["hi"], none, by decide⟩, ⟨"/reader", [], none, by decide⟩], by decide, by decide⟩

/-- The sample after both stages were started and some more moves were made. -/
def after (moves : List Move) : Option Network :=
  (Network.ofPipeline pipeline world).follow programs context (List.replicate 8 (.start 4 2) ++ moves)

theorem reachable {moves : List Move} {net : Network} (h : after moves = some net) :
    Network.Reachable programs context pipeline world net :=
  Network.Reachable.ofPipeline.follow h

end Sample

end Conch
