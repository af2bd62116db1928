-- SUMMARY: The wiring of a running pipeline: who closes which end of which pipe, and that nothing stays open at the end.
import Conch.Proofs.Pipeline.Serving

/-!
# Wiring

The interpreter holds ends of pipes: the one that the input of a process is fed
through, the one that the output of a stage is drained through, and for a built-in
stage also the one that it writes to. Each of them is to be closed by one party.
What feeds the first stage is closed when that stage is started, what a built-in
stage writes to is closed at its end, and all the others are closed by the relay on
their side.

`Network.Wiring` says of a network that every move opens and closes ends in this
way, that a relay works between two neighbours only, that only the last stage has
its output in a file or at the console, and what is left when the interpreter has
come to a status: nothing.
-/

namespace Conch

/-! ## Ends of pipes -/

/-- What an end of a pipe is for, seen from a stage. -/
inductive Side where
  /-- The input of the stage is fed through it. -/
  | feed
  /-- The output of the stage is drained through it. -/
  | drain
  /-- A built-in stage writes its output to it. -/
  | spout
  deriving DecidableEq, Repr

/-- An end of a pipe that the interpreter holds for a stage. -/
structure PipeEnd where
  side : Side
  place : Nat
  deriving DecidableEq, Repr

/-- Who closes ends of pipes: the relay from a stage, the start of the first stage, or a built-in stage. -/
inductive Closer where
  | relay (i : Nat)
  | firstStart
  | builtin (i : Nat)
  deriving DecidableEq, Repr

/-- Who is to close an end of a pipe. -/
def PipeEnd.closer : PipeEnd → Closer
  | ⟨.feed, 0⟩ => .firstStart
  | ⟨.feed, i + 1⟩ => .relay i
  | ⟨.drain, i⟩ => .relay i
  | ⟨.spout, i⟩ => .builtin i

/-- Whether an end of a pipe of a stage is open, if there is such an end. -/
def Side.isOpen? : Side → Member → Option Bool
  | .feed, m => m.input.map Pipe.writerOpen
  | .drain, m => m.output.map Pipe.readerOpen
  | .spout, m => if m.role = .builtin then m.output.map Pipe.writerOpen else none

namespace Network

/-- Whether an end of a pipe is open, if there is such an end. -/
def isOpen? (net : Network) (e : PipeEnd) : Option Bool :=
  net.members[e.place]?.bind e.side.isOpen?

/-- As what a move may close ends of pipes. -/
def closerFor (net : Network) : Move → Option Closer
  | .start _ _ => if net.members.isEmpty then some .firstStart else none
  | .stage i _ => some (.builtin i)
  | .relay i _ => some (.relay i)
  | .wait => none

/-- What one move does to an end of a pipe. -/
inductive EndMoved (mover : Option Closer) (e : PipeEnd) : Option Bool → Option Bool → Prop
  | same (state : Option Bool) : EndMoved mover e state state
  | opened (hcloser : e.closer ≠ .firstStart) : EndMoved mover e none (some true)
  /-- What feeds the first stage is closed as soon as it is there. -/
  | neverOpen (hcloser : e.closer = .firstStart) (hmover : mover = some e.closer) : EndMoved mover e none (some false)
  | closed (hmover : mover = some e.closer) : EndMoved mover e (some true) (some false)

variable {programs : Programs} {ctx : Context} {p : Pipeline} {w : World} {net next : Network}

theorem EndMoved.of_eq {mover : Option Closer} {e : PipeEnd} {state state' : Option Bool} (h : state' = state) :
    EndMoved mover e state state' := h ▸ .same _

/-- An end that was open is kept, or closed by who is to close it. -/
theorem EndMoved.of_open {mover : Option Closer} {e : PipeEnd} {r : Pipe → Pipe → Prop} {o o' : Option Pipe}
    {f : Pipe → Bool} (hmover : mover = some e.closer) (hopen : ∀ p, o = some p → f p = true)
    (hmoved : Option.Rel r o o') : EndMoved mover e (o.map f) (o'.map f) := by
  cases hmoved with
  | none => exact .same _
  | @some p p' h =>
    rw [Option.map_some, Option.map_some, hopen p rfl]
    cases f p' with
    | true => exact .same _
    | false => exact .closed hmover

/-! ## Moves -/

theorem map_writerOpen_of_read {o o' : Option Pipe} (h : Option.Rel Pipe.ReaderMoved o o') :
    o'.map Pipe.writerOpen = o.map Pipe.writerOpen := by
  cases h with
  | none => rfl
  | some hmoved => exact congrArg some hmoved.writerOpen

theorem map_readerOpen_of_written {o o' : Option Pipe} (h : Option.Rel Pipe.WriterMoved o o') :
    o'.map Pipe.readerOpen = o.map Pipe.readerOpen := by
  cases h with
  | none => rfl
  | some hmoved => exact congrArg some hmoved.readerOpen

/-- A stage that moves closes at most the end that it writes to, if it is a built-in command. -/
theorem stage_endMoved {i wish : Nat} (h : net.Invariant programs p)
    (hstep : net.step programs ctx (.stage i wish) = some next) (e : PipeEnd) :
    EndMoved (net.closerFor (.stage i wish)) e (net.isOpen? e) (next.isOpen? e) := by
  obtain ⟨m, m', world, hm, hmove, rfl⟩ := stage_cases hstep
  obtain ⟨side, place⟩ := e
  unfold isOpen?
  dsimp only
  by_cases hplace : i = place
  · subst hplace
    have hstepped := Member.stepped_of_step hmove
    have hmoved := hstepped.moved (h.members i m hm).1
    rw [hm, List.getElem?_set_self (List.getElem?_eq_some_iff.1 hm).1]
    simp only [Option.bind_some]
    cases side with
    | feed => exact .of_eq (map_writerOpen_of_read hmoved.input)
    | drain => exact .of_eq (map_readerOpen_of_written hmoved.output)
    | spout =>
      simp only [Side.isOpen?, hmoved.role]
      by_cases hrole : m.role = .builtin
      · rw [if_pos hrole, if_pos hrole]
        -- The stage was running, so its end of the pipe was open.
        have hrunning : m.isEnded = false := by
          unfold Member.isEnded
          cases htask : m.task with
          | running job => rfl
          | ended e => simp [Member.step, htask] at hmove
        refine .of_open rfl (fun p hp => ?_) hmoved.output
        rw [(h.members i m hm).1.output_writer p hp, hrunning]
        rfl
      · rw [if_neg hrole, if_neg hrole]
        exact .same _
  · rw [List.getElem?_set_ne hplace]
    exact .same _

/-- The relay closes at most the ends on its two sides. -/
theorem relay_endMoved {i wish : Nat} (h : net.Invariant programs p)
    (hstep : net.step programs ctx (.relay i wish) = some next) (e : PipeEnd) :
    EndMoved (net.closerFor (.relay i wish)) e (net.isOpen? e) (next.isOpen? e) := by
  obtain ⟨c, before, after, ⟨c', source, target⟩, hc, hbefore, hafter, hmove, rfl⟩ := relay_cases hstep
  have hlink := h.link hbefore hc hafter
  obtain ⟨hread, hwritten, -⟩ := Carrier.step_advanced hlink hmove
  dsimp only at hread hwritten ⊢
  have hgoing : c.finished = false := by
    cases hfinished : c.finished with
    | false => rfl
    | true => simp [Carrier.step, hfinished] at hmove
  have hlength : i + 1 < net.members.length := (List.getElem?_eq_some_iff.1 hafter).1
  obtain ⟨side, place⟩ := e
  unfold isOpen?
  dsimp only
  by_cases hi : i + 1 = place
  · subst hi
    rw [List.getElem?_set_self (by rwa [List.length_set]), hafter]
    simp only [Option.bind_some]
    cases side with
    | feed =>
      refine .of_open rfl (fun t ht => ?_) hwritten
      rw [hlink.target_writer t ht, hgoing]
      rfl
    | drain => exact .same _
    | spout => exact .same _
  · rw [List.getElem?_set_ne hi]
    by_cases hplace : i = place
    · subst hplace
      rw [List.getElem?_set_self (by omega), hbefore]
      simp only [Option.bind_some]
      cases side with
      | feed => exact .same _
      | drain =>
        refine .of_open rfl (fun s hs => ?_) hread
        rw [hlink.source_reader s hs, hgoing]
        rfl
      | spout =>
        refine .of_eq ?_
        simp only [Side.isOpen?]
        rw [map_writerOpen_of_read hread]
    · rw [List.getElem?_set_ne hplace]
      exact .same _

/-- The ends of a stage that has just been started are open, except for what would feed the first one. -/
theorem fresh_endMoved {m : Member} {isLast : Bool} {s : Stage} {mover : Option Closer} {i : Nat}
    (hfresh : m.Fresh programs (i = 0) isLast s) (hmover : i = 0 → mover = some .firstStart) (side : Side) :
    EndMoved mover ⟨side, i⟩ none (side.isOpen? m) := by
  cases side with
  | feed =>
    simp only [Side.isOpen?]
    cases hinput : m.input with
    | none => exact .same _
    | some t =>
      rw [Option.map_some, (hfresh.input_new hinput).2]
      cases i with
      | zero => exact .neverOpen rfl (hmover rfl)
      | succ i => exact .opened (by simp [PipeEnd.closer])
  | drain =>
    simp only [Side.isOpen?]
    cases houtput : m.output with
    | none => exact .same _
    | some t =>
      rw [Option.map_some, (hfresh.output_new houtput).2]
      exact .opened (by simp [PipeEnd.closer])
  | spout =>
    simp only [Side.isOpen?]
    split
    · rename_i hrole
      cases houtput : m.output with
      | none => exact .same _
      | some t =>
        have hrunning : m.isEnded = false := by
          cases hfresh with
          | builtin job size => rfl
          | absent status owned => cases hrole
          | process owned inputSize outputSize hruns hstdin hstdout => rfl
        rw [Option.map_some, hfresh.sound.output_writer t houtput, hrunning]
        exact .opened (by simp [PipeEnd.closer])
    · exact .same _

theorem start_endMoved {inputSize outputSize : Nat} (h : net.Invariant programs p)
    (hstep : net.step programs ctx (.start inputSize outputSize) = some next) (e : PipeEnd) :
    EndMoved (net.closerFor (.start inputSize outputSize)) e (net.isOpen? e) (next.isOpen? e) := by
  cases startMove_of_start hstep with
  | called hstarting => exact .same _
  | aborted hstarting => exact .same _
  | @joined m hstarting =>
    obtain ⟨-, s, hs, hwp⟩ := h.starting _ hstarting
    have hfresh : m.Fresh programs net.members.isEmpty net.waiting.isEmpty s := (Job.wp_done _ _).1 hwp m rfl
    obtain ⟨side, place⟩ := e
    show EndMoved _ _ (net.members[place]?.bind side.isOpen?) ((net.members ++ [m])[place]?.bind side.isOpen?)
    by_cases hplace : place < net.members.length
    · rw [List.getElem?_append_left hplace]
      exact .same _
    have hnone : net.members[place]? = none := List.getElem?_eq_none (Nat.le_of_not_lt hplace)
    by_cases hnew : place = net.members.length
    · have hempty : net.members.isEmpty = (place = 0 : Bool) := by
        rw [hnew, Bool.eq_iff_iff, List.isEmpty_iff_length_eq_zero, decide_eq_true_eq]
      rw [hempty] at hfresh
      rw [hnone, hnew, List.getElem?_concat_length, ← hnew]
      refine fresh_endMoved hfresh (fun hzero => ?_) side
      rw [closerFor, hempty, if_pos (decide_eq_true hzero)]
    · rw [hnone, List.getElem?_eq_none (by rw [List.length_append, List.length_singleton]; omega)]
      exact .same _
  | begun inputSize outputSize hstarting haborted hwaiting => exact .same _

/-- Relay `i` works between the output of stage `i` and the input of the next one, and nowhere else. -/
structure Joins (net next : Network) (i wish : Nat) : Prop where
  works : ∃ c c', net.carriers[i]? = some c ∧ next.carriers = net.carriers.set i c' ∧
    c.step wish (net.outputOf i) (net.inputOf (i + 1)) = some (c', next.outputOf i, next.inputOf (i + 1))
  outputs : ∀ j, j ≠ i → next.outputOf j = net.outputOf j
  inputs : ∀ j, j ≠ i + 1 → next.inputOf j = net.inputOf j

theorem relay_joins {i wish : Nat} (hstep : net.step programs ctx (.relay i wish) = some next) :
    net.Joins next i wish := by
  obtain ⟨c, before, after, ⟨c', source, target⟩, hc, hbefore, hafter, hmove, rfl⟩ := relay_cases hstep
  have hafter' : (net.members.set i { before with output := source })[i + 1]? = some after := by
    rw [List.getElem?_set_ne (by omega)]
    exact hafter
  refine ⟨⟨c, c', hc, rfl, ?_⟩, ?_, ?_⟩
  · rw [outputOf_eq hbefore, inputOf_eq hafter, hmove]
    unfold outputOf inputOf
    dsimp only
    rw [bind_set_of_eq { after with input := target } hafter' rfl, bind_set_self hbefore, bind_set_self hafter']
  · intro j hj
    unfold outputOf
    dsimp only
    rw [bind_set_of_eq { after with input := target } hafter' rfl, bind_set_ne (Ne.symm hj)]
  · intro j hj
    unfold inputOf
    dsimp only
    rw [bind_set_ne (Ne.symm hj), bind_set_of_eq { before with output := source } hbefore rfl]

/-! ## The end -/

/-- When the interpreter has left the pool, every relay is done, unless a stage could not be started. -/
def RelaysDone (net : Network) : Prop :=
  net.isOver = true → net.aborted = none → ∀ (i : Nat) (c : Carrier), net.carriers[i]? = some c → c.finished = true

/-- The pool can only be left when all its tasks are done. -/
theorem done_of_wait (h : net.wait = some next) (hover : next.isOver = true) :
    net.isOver = true ∨ ∀ t ∈ net.tasks, net.isDone t = true := by
  have hleave : net.leave = some next → ∀ t ∈ net.tasks, net.isDone t = true := by
    intro hleave
    unfold leave at hleave
    split at hleave
    · rename_i hdone
      rw [Bool.and_eq_true, List.all_eq_true] at hdone
      exact hdone.2
    · cases hleave
  unfold wait at h
  split at h
  · split at h
    · cases h
    split at h
    · split at h
      · cases h
      · cases h
        exact .inl hover
      · cases h
        exact .inl hover
    split at h
    · split at h
      · cases h
        exact .inl hover
      · cases h
    · exact .inr (hleave h)
  · exact .inr (hleave h)

theorem Reachable.relaysDone (h : Reachable programs ctx p w net) : net.RelaysDone := by
  induction h with
  | ofPipeline =>
    intro hover
    cases hover
  | @step net next move hnet hstep ih =>
    intro hover haborted
    cases move with
    | start inputSize outputSize =>
      -- Nothing is started any more after the pool was left.
      have hsame : net.isOver = true ∧ net.aborted = none := by
        cases startMove_of_start hstep with
        | called hstarting => exact ⟨hover, haborted⟩
        | aborted hstarting => cases haborted
        | joined hstarting => exact ⟨hover, haborted⟩
        | begun inputSize outputSize hstarting haborted' hwaiting => exact ⟨hover, haborted⟩
      have hseen := hnet.seen
      have hnothing : net.waiting = [] ∧ net.starting = none := by
        rcases hseen.isOver hsame.1 with hsome | hfault | ⟨hwaiting, hstarting, -⟩
        · exact absurd hsame.2 hsome
        · exact hseen.faultOnce hfault
        · exact ⟨hwaiting, hstarting⟩
      simp [Network.step, Network.start, hnothing.1, hnothing.2] at hstep
    | stage i wish =>
      obtain ⟨m, m', world, -, -, rfl⟩ := stage_cases hstep
      exact ih hover haborted
    | relay i wish =>
      obtain ⟨c, before, after, r, hc, -, -, hmove, rfl⟩ := relay_cases hstep
      have hfinished := ih hover haborted i c hc
      simp [Carrier.step, hfinished] at hmove
    | wait =>
      have hdone := done_of_wait hstep hover
      have hpooled := hnet.invariant.pooled
      obtain ⟨statuses, relaysSeen, fault, isOver, rfl⟩ := wait_cases hstep
      rcases hdone with hbefore | hdone
      · exact ih hbefore haborted
      · intro i c hc
        have htask := hdone _ ((hpooled.mem_relay i).2 (List.getElem?_eq_some_iff.1 hc).1)
        simpa [isDone, show net.carriers[i]? = some c from hc] using htask

/-- What is left of a pipeline when it has come to a status. -/
structure Settled (p : Pipeline) (net : Network) (code : Nat) : Prop where
  stages : net.members.length = p.stages.length
  relays : net.carriers.length = p.stages.length - 1
  stages_ended : ∀ m ∈ net.members, m.isEnded = true
  relays_done : ∀ c ∈ net.carriers, c.finished = true
  ends_closed : ∀ e, net.isOpen? e ≠ some true
  status : ∃ m owned, net.members[p.stages.length - 1]? = some m ∧ m.task = .ended ⟨.ok code, owned⟩

/-- With every stage ended and every relay done, no end of a pipe is open. -/
theorem Invariant.ends_closed (h : net.Invariant programs p) (hstages : net.members.length = p.stages.length)
    (hended : ∀ (i : Nat) (m : Member), net.members[i]? = some m → m.isEnded = true)
    (hdone : ∀ (i : Nat) (c : Carrier), net.carriers[i]? = some c → c.finished = true) (e : PipeEnd) :
    net.isOpen? e ≠ some true := by
  intro hopen
  obtain ⟨side, place⟩ := e
  obtain ⟨m, hm, hstate⟩ := Option.bind_eq_some_iff.1 hopen
  obtain ⟨hsound, hwired⟩ := h.members place m hm
  cases side with
  | feed =>
    obtain ⟨t, ht, hwriter⟩ := Option.map_eq_some_iff.1 hstate
    have hinput : net.inputOf place = some t := (inputOf_eq hm).trans ht
    cases place with
    | zero => simp [(h.first t hinput).2] at hwriter
    | succ i =>
      obtain ⟨c, hc⟩ := h.carrier_exists (List.getElem?_eq_some_iff.1 hm).1
      have hclosed := (h.links i c hc).target_writer t hinput
      simp [hwriter, hdone i c hc] at hclosed
  | drain =>
    obtain ⟨t, ht, hreader⟩ := Option.map_eq_some_iff.1 hstate
    have houtput : net.outputOf place = some t := (outputOf_eq hm).trans ht
    have hmore := (hwired.output_iff.1 (by rw [ht]; rfl)).2
    obtain ⟨c, hc⟩ := h.carrier_exists (hstages ▸ hmore)
    have hclosed := (h.links place c hc).source_reader t houtput
    simp [hreader, hdone place c hc] at hclosed
  | spout =>
    simp only [Side.isOpen?] at hstate
    split at hstate
    · obtain ⟨t, ht, hwriter⟩ := Option.map_eq_some_iff.1 hstate
      have hclosed := hsound.output_writer t ht
      simp [hwriter, hended place m hm] at hclosed
    · cases hstate

/-- No fault has come up in a pipeline that has come to a status. -/
theorem no_fault_of_status {code : Nat} (h : net.outcome = .status code) :
    net.aborted = none ∧ net.fault = none ∧ net.statuses.getLast?.getD 0 = code := by
  unfold outcome at h
  split at h
  · cases h
  · cases h
  · exact ⟨‹_›, ‹_›, by simpa using h⟩

theorem Reachable.settled {code : Nat} (h : Reachable programs ctx p w net) (hover : net.isOver = true)
    (houtcome : net.outcome = .status code) : net.starting = none ∧ net.Settled p code := by
  have hinvariant := h.invariant
  have hseen := h.seen
  obtain ⟨haborted, hfault, hcode⟩ := no_fault_of_status houtcome
  obtain ⟨hwaiting, hstarting, hlength⟩ :=
    ((hseen.isOver hover).resolve_left (· haborted)).resolve_left (· hfault)
  have hstages : net.members.length = p.stages.length := by
    have hdrop := hinvariant.waiting haborted
    rw [hwaiting, hstarting] at hdrop
    have hle := List.drop_eq_nil_iff.1 hdrop.symm
    have hge := hinvariant.members_le
    simp only [Option.toList_none, List.length_nil, Nat.add_zero] at hle
    omega
  have hrelays : net.carriers.length = p.stages.length - 1 := hstages ▸ hinvariant.carriers
  have hended : ∀ (i : Nat) (m : Member), net.members[i]? = some m →
      ∃ code owned, net.statuses[i]? = some code ∧ m.task = .ended ⟨.ok code, owned⟩ := by
    intro i m hm
    have hi : i < net.statuses.length := hlength ▸ (List.getElem?_eq_some_iff.1 hm).1
    have hstatus := List.getElem?_eq_getElem hi
    obtain ⟨m', owned, hm', htask⟩ := hseen.statuses i _ hstatus
    rw [hm] at hm'
    cases hm'
    exact ⟨_, owned, hstatus, htask⟩
  have hdone := h.relaysDone hover haborted
  have hisEnded : ∀ (i : Nat) (m : Member), net.members[i]? = some m → m.isEnded = true := by
    intro i m hm
    obtain ⟨code, owned, -, htask⟩ := hended i m hm
    unfold Member.isEnded
    rw [htask]
  refine ⟨hstarting, hstages, hrelays, ?_, ?_, ?_, ?_⟩
  · intro m hm
    obtain ⟨i, hi⟩ := List.mem_iff_getElem?.1 hm
    exact hisEnded i m hi
  · intro c hc
    obtain ⟨i, hi⟩ := List.mem_iff_getElem?.1 hc
    exact hdone i c hi
  · exact hinvariant.ends_closed hstages hisEnded hdone
  · have hlast : p.stages.length - 1 < net.members.length := by
      have htwo := p.two_le
      omega
    have hm := List.getElem?_eq_getElem hlast
    obtain ⟨code', owned, hstatus, htask⟩ := hended _ _ hm
    rw [List.getLast?_eq_getElem?, ← hlength, hstages, hstatus] at hcode
    cases hcode
    exact ⟨_, owned, hm, htask⟩

/-- A file that was opened for a stage is closed when the files of all stages are. -/
theorem closed_of_custody {code : Nat} {h : Handle} (hnet : Reachable programs ctx p w net) (hover : net.isOver = true)
    (houtcome : net.outcome = .status code) (hbound : h < net.world.opened.size)
    (hcustody : net.Custody programs ctx p w h) : (net.owned.foldl World.close net.world).Closed h := by
  obtain ⟨hnone, hsettled⟩ := hnet.settled hover houtcome
  cases hcustody with
  | closed hclosed => exact hclosed.closeAll _
  | starting hstarting hyields =>
    rw [hnone] at hstarting
    cases hstarting
  | @member i m hm hkeeps =>
    have hmem : m ∈ net.members := List.mem_of_getElem? hm
    have hended := hsettled.stages_ended m hmem
    refine World.closed_closeAll ?_ hbound
    refine List.mem_append_right _ (List.mem_flatMap.2 ⟨m, hmem, ?_⟩)
    unfold Keeps at hkeeps
    cases htask : m.task with
    | running job => simp [Member.isEnded, htask] at hended
    | ended e =>
      rw [htask] at hkeeps
      exact (Job.yields_done e).1 hkeeps
  | aborted haborted => exact absurd (no_fault_of_status houtcome).1 haborted

/-! ## The wiring of a pipeline -/

/-- Where the output of a process goes: into the pipe, except that the last stage has it in its file or at the
    console. The file was opened for it before. -/
structure OutputPlaced (programs : Programs) (ctx : Context) (p : Pipeline) (w : World) (net : Network) (s : Stage)
    (output : Sink) : Prop where
  inner : net.members.length + 1 < p.stages.length → output = .pipe
  last : net.members.length + 1 = p.stages.length → s.stdout? = none → output = .out
  file : ∀ name, s.stdout? = some name → net.members.length + 1 = p.stages.length ∧ ∃ h, output = .file h ∧
    net.HasOpened programs ctx p w
      ⟨h, (ctx.resolve (.ofString name)).toString, if s.appends then .append else .truncate⟩

/-- How a pipeline in progress is wired. -/
structure Wiring (programs : Programs) (ctx : Context) (p : Pipeline) (w : World) (net : Network) : Prop where
  /-- Every stage has the pipes of its kind and its place. -/
  ends : ∀ (i : Nat) (m : Member), net.members[i]? = some m → m.Wired p i
  /-- Every end of a pipe is opened at most once, and closed at most once, by who is to close it. -/
  moves : ∀ move next, net.step programs ctx move = some next →
    ∀ e, EndMoved (net.closerFor move) e (net.isOpen? e) (next.isOpen? e)
  relays : ∀ i wish next, net.step programs ctx (.relay i wish) = some next → net.Joins next i wish
  /-- A process that is taken in has its output in the right place. -/
  processes : ∀ m, net.starting = some (.done (.ok m)) → m.role = .process →
    ∃ s job owned output, p.stages[net.members.length]? = some s ∧ m.task = .running (programJob job owned) ∧
      RunsIn programs (fun _ => True) output job ∧ net.OutputPlaced programs ctx p w s output
  /-- A built-in command writes its output to the pipe, and as the last stage to its file or to the console. -/
  builtins : ∀ i move data, net.ServesStage i move →
    (net.callOf move = some (.write .pipe data) → i + 1 < p.stages.length) ∧
    (net.callOf move = some (.write .out data) → i + 1 = p.stages.length ∧
      ∀ s, p.stages[i]? = some s → s.stdout? = none)
  /-- Only the files that a stage names are opened, and only the last stage names one for its output. -/
  files : ∀ i move base path mode, net.ServesStage i move → net.callOf move = some (.openFile base path mode) →
    ∃ s name, p.stages[i]? = some s ∧ s.Redirected name mode ∧ path = (ctx.resolve (.ofString name)).toString ∧
      (s.stdout? = some name → i + 1 = p.stages.length)
  /-- When the pipeline has come to a status nothing is left. -/
  settled : net.isOver = true → ∀ code, net.outcome = .status code → net.Settled p code ∧
    ∀ before move after h, Reachable programs ctx p w before → before.OpensFor move h →
      before.step programs ctx move = some after → Onward programs ctx after net →
      (net.owned.foldl World.close net.world).Closed h

/-- Only the last stage of a pipeline has a file for its output. -/
theorem place_of_stdout {s : Stage} {i : Nat} {name : String} (hs : p.stages[i]? = some s)
    (hname : s.stdout? = some name) : i + 1 = p.stages.length := by
  have hi := (List.getElem?_eq_some_iff.1 hs).1
  by_contra hinner
  have hmem : s ∈ p.stages.dropLast := by
    refine List.mem_iff_getElem?.2 ⟨i, ?_⟩
    rw [List.getElem?_dropLast, if_pos (by omega), hs]
  rw [p.placed.2 s hmem] at hname
  cases hname

theorem outputPlaced_of_spawned {s : Stage} {output : Sink} {held : List Opening}
    (hs : p.stages[net.members.length]? = some s) (hheld : ∀ o ∈ held, net.HasOpened programs ctx p w o)
    (hnone : s.stdout? = none → output = if isLastAt p net.members.length then .out else .pipe)
    (hsome : ∀ name, s.stdout? = some name → ∃ h, output = .file h ∧
      ⟨h, (ctx.resolve (.ofString name)).toString, if s.appends then .append else .truncate⟩ ∈ held) :
    net.OutputPlaced programs ctx p w s output := by
  refine ⟨?_, ?_, ?_⟩
  · intro hinner
    have hfile : s.stdout? = none := by
      cases hfile : s.stdout? with
      | none => rfl
      | some name => exact absurd (place_of_stdout hs hfile) (by omega)
    rw [hnone hfile, isLastAt, if_neg (by simpa using Nat.ne_of_lt hinner)]
  · intro hlast hfile
    rw [hnone hfile, isLastAt, if_pos (decide_eq_true hlast)]
  · intro name hname
    obtain ⟨h, houtput, hmem⟩ := hsome name hname
    exact ⟨place_of_stdout hs hname, h, houtput, hheld _ hmem⟩

/-- A pipeline in progress is wired completely, in whatever order its parts move, and leaves nothing open. -/
theorem wiring_of_reachable (hnet : Reachable programs ctx p w net) : net.Wiring programs ctx p w where
  ends i m hm := (hnet.invariant.members i m hm).2
  moves move next hstep e := by
    cases move with
    | start inputSize outputSize => exact start_endMoved hnet.invariant hstep e
    | stage i wish => exact stage_endMoved hnet.invariant hstep e
    | relay i wish => exact relay_endMoved hnet.invariant hstep e
    | wait =>
      obtain ⟨statuses, relaysSeen, fault, isOver, rfl⟩ := wait_cases hstep
      exact .same _
  relays i wish next hstep := relay_joins hstep
  processes m hstarting hrole := by
    obtain ⟨s, held, hs, hheld, htracked⟩ := hnet.serving.starting _ hstarting
    cases (Job.tracked_done _).1 htracked with
    | builtin hb hrole' htask =>
      rw [hrole] at hrole'
      cases hrole'
    | absent status hnot howned => cases hrole
    | @process _ job owned _ hnot hrole' htask howned hspawned =>
      obtain ⟨output, ⟨name, program, call, hprogram, -, hcall, hjob⟩, hnone, hsome⟩ := hspawned.runs
      exact ⟨s, job, owned, output, hs, htask, ⟨name, program, call, hprogram, trivial, hcall, hjob⟩,
        outputPlaced_of_spawned hs hheld hnone hsome⟩
  builtins i move data hserves := by
    refine ⟨fun hcall => ?_, fun hcall => ?_⟩
    · obtain ⟨s, hs, hrequest⟩ := hnet.request hserves hcall
      have hi := (List.getElem?_eq_some_iff.1 hs).1
      cases hrequest with
      | toPipe hlast hfile =>
        have hne : i + 1 ≠ p.stages.length := by simpa [isLastAt] using hlast
        omega
    · obtain ⟨s, hs, hrequest⟩ := hnet.request hserves hcall
      cases hrequest with
      | toOut hlast hfile =>
        refine ⟨by simpa [isLastAt] using hlast, fun s' hs' => ?_⟩
        rw [hs] at hs'
        cases hs'
        exact hfile
  files i move base path mode hserves hcall := by
    obtain ⟨s, hs, hrequest⟩ := hnet.request hserves hcall
    cases hrequest with
    | @openFile name _ hname => exact ⟨s, name, hs, hname, rfl, place_of_stdout hs⟩
  settled hover code houtcome := by
    refine ⟨(hnet.settled hover houtcome).2, ?_⟩
    intro before move after h hbefore hopens hstep honward
    obtain ⟨hbound, hcustody⟩ := custody_of_opens hbefore hopens hstep
    obtain ⟨hbound, hcustody⟩ := hcustody.onward (.step move hbefore hstep) hbound honward
    exact closed_of_custody hnet hover houtcome hbound hcustody

end Network

/-! ## A sample -/

namespace Sample

theorem isExecutableName_nosuch : IsExecutableName "nosuch" := by
  decide

theorem isExecutableName_reader : IsExecutableName "/reader" := by
  decide

/-- `nosuch | echo hi | /reader > out` -/
def mixed : Pipeline :=
  ⟨[⟨"nosuch", [], none, isExecutableName_nosuch⟩, ⟨"echo", ["hi"], none, isExecutableName_echo⟩,
    ⟨"/reader", [], some { stdout := some "out" }, isExecutableName_reader⟩], by decide, by decide⟩

/-- A run of it to the end. -/
def mixedMoves : List Move :=
  List.replicate 13 (.start 4 4) ++ [.relay 0 9] ++ List.replicate 2 (.stage 1 9) ++ List.replicate 3 (.relay 1 9) ++
    List.replicate 4 (.stage 2 9) ++ List.replicate 6 .wait

end Sample

namespace Network

theorem wiring_of_reachable_after_mixed_stages : ∃ net,
    Reachable Sample.programs Sample.context Sample.mixed Sample.world net ∧ net.isOver = true ∧
    net.outcome = .status 0 ∧ net.Settled Sample.mixed 0 ∧ net.Wiring Sample.programs Sample.context Sample.mixed Sample.world := by
  have hrun : ((ofPipeline Sample.mixed Sample.world).follow Sample.programs Sample.context Sample.mixedMoves).any
      (fun net => net.isOver && net.outcome = .status 0) = true := by
    decide +kernel
  obtain ⟨net, hnet, hfacts⟩ := (Option.any_eq_true _ _).1 hrun
  rw [Bool.and_eq_true, decide_eq_true_eq] at hfacts
  have hreachable := Reachable.ofPipeline.follow hnet
  have hwiring := wiring_of_reachable hreachable
  exact ⟨net, hreachable, hfacts.1, hfacts.2, (hwiring.settled hfacts.1 0 hfacts.2).1, hwiring⟩

end Network

end Conch
