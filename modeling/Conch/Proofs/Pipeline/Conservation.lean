-- SUMMARY: No byte is lost, repeated, reordered or made up between neighbouring stages of a pipeline.
import Conch.Proofs.Pipeline.Invariant

/-!
# Conservation of bytes

At every moment of every run, all that a stage has written is somewhere on its way
to the next one: given to it, in the pipe at its input, with the relay, or still in
the pipe that it was written to, in this order. A stage sees the end of its input
only when all of it has been given and the stage before has ended, and a relay
stops early only if the stage after it takes no input any more.

What a stage was given and what it has written are counted at its pipes. `Recorded`
says, move by move, that the first is what its reads are answered with and the
second what is taken of its writes.
-/

namespace Conch

/-! ## The bytes in a pipe -/

/-- What is in a pipe, if there is one. -/
def heldIn (o : Option Pipe) : Bytes := (o.map Pipe.buffer).getD []

theorem putInto_eq (o : Option Pipe) : putInto o = takenFrom o ++ heldIn o := by
  cases o with
  | none => rfl
  | some p => exact p.allPut_eq

/-- The bytes that the answer to a read brings. -/
def bytesOf : Except Errno Bytes → Bytes
  | .ok data => data
  | .error _ => []

namespace Pipe

variable {p p' : Pipe}

theorem Reads.allTaken {limit : Nat} {reply : Except Errno Bytes} (h : p.Reads limit reply p') :
    p'.allTaken = p.allTaken ++ bytesOf reply := by
  cases h with
  | refused hreader => exact (List.append_nil _).symm
  | unasked hlimit => exact (List.append_nil _).symm
  | ended hreader hbuffer hwriter => exact (List.append_nil _).symm
  | taken n hdata => exact p.take_allTaken n

/-- A read that brings no byte, of those asked for, has come to the end of what was put in. -/
theorem ended_of_read {wish limit : Nat} (hlimit : 0 < limit) (h : p.read wish limit = some (.ok [], p')) :
    p.readerOpen = true ∧ p.buffer = [] ∧ p.writerOpen = false := by
  generalize hdata : ([] : Bytes) = data at h
  cases reads_of_read h with
  | unasked hzero => omega
  | ended hreader hbuffer hwriter => exact ⟨hreader, hbuffer, hwriter⟩
  | taken n hne => exact absurd hdata.symm hne

/-- Every read is answered with the end of input at once. -/
def AtEnd (p : Pipe) : Prop :=
  ∀ wish limit, p.read wish limit = some (.ok [], p)

theorem atEnd_of_empty (hreader : p.readerOpen = true) (hbuffer : p.buffer = []) (hwriter : p.writerOpen = false) :
    p.AtEnd := by
  intro wish limit
  unfold read
  rw [hreader, hbuffer, hwriter]
  by_cases hlimit : limit = 0
  · simp [hlimit]
  · simp [hlimit]

end Pipe

/-! ## What is counted -/

namespace Member

/-- What a stage was given and has written changes by what it reads and writes, and by nothing else. -/
inductive Exchange (m m' : Member) : Prop
  | read {limit : Nat} {resume : Except Errno Bytes → Job StageEnd} (reply : Except Errno Bytes)
      (htask : m.task = .running (.ask (.read .pipe limit) resume)) (htask' : m'.task = .running (resume reply))
      (hgiven : m'.given = m.given ++ bytesOf reply) (hwritten : m'.written = m.written)
  | write {resume : Except Errno Unit → Job StageEnd} (taken rest : Bytes)
      (htask : m.task = .running (.ask (.write .pipe (taken ++ rest)) resume))
      (htask' : m'.task = .running (afterWrite resume (.ok rest)))
      (hgiven : m'.given = m.given) (hwritten : m'.written = m.written ++ taken)
  | refused {data : Bytes} {resume : Except Errno Unit → Job StageEnd} (cause : Errno)
      (htask : m.task = .running (.ask (.write .pipe data) resume))
      (htask' : m'.task = .running (resume (.error cause)))
      (hgiven : m'.given = m.given) (hwritten : m'.written = m.written)
  | quiet (hread : ∀ limit resume, m.task = .running (.ask (.read .pipe limit) resume) → m'.task = m.task)
      (hwrite : ∀ data resume, m.task = .running (.ask (.write .pipe data) resume) → m'.task = m.task)
      (hgiven : m'.given = m.given) (hwritten : m'.written = m.written)

/-- What a move may do to a stage: the bytes are counted, and its input stays open until it closes
    it or ends. -/
structure Recorded (m m' : Member) : Prop where
  exchange : m.Exchange m'
  keeps_input : ∀ t, m.input = some t → t.readerOpen = true → ∃ t', m'.input = some t' ∧
    (t'.readerOpen = true ∨ m'.isEnded = true ∨ ∃ resume, m.task = .running (.ask (.hangUp .pipe) resume))

variable {m m' : Member}

theorem given_of_some {t : Pipe} (h : m.input = some t) : m.given = t.allTaken := by
  rw [given, h]
  rfl

theorem written_of_some {s : Pipe} (h : m.output = some s) : m.written = s.allPut := by
  rw [written, h]
  rfl

/-- A stage that is doing something else neither reads nor writes. -/
theorem Exchange.of_task {task : Task} (htask : m.task = task)
    (hread : ∀ limit resume, task ≠ .running (.ask (.read .pipe limit) resume))
    (hwrite : ∀ data resume, task ≠ .running (.ask (.write .pipe data) resume))
    (hgiven : m'.given = m.given) (hwritten : m'.written = m.written) : m.Exchange m' := by
  refine .quiet ?_ ?_ hgiven hwritten
  · intro limit resume hreads
    exact absurd (htask.symm.trans hreads) (hread limit resume)
  · intro data resume hwrites
    exact absurd (htask.symm.trans hwrites) (hwrite data resume)

theorem Stepped.exchange (h : m.Stepped m') : m.Exchange m' := by
  cases h with
  | finished htask =>
    refine .of_task htask (fun _ _ h => by cases h) (fun _ _ h => by cases h) ?_ ?_
    · unfold given finish
      cases m.input <;> rfl
    · unfold written finish
      cases m.output <;> rfl
  | unfed htask hinput => exact .read (.ok []) htask rfl (List.append_nil _).symm rfl
  | read htask hinput hreads =>
    refine .read _ htask rfl ?_ rfl
    rw [given_of_some hinput]
    exact hreads.allTaken
  | unheard htask houtput => exact .refused _ htask rfl rfl rfl
  | write htask houtput hwrites =>
    cases hwrites with
    | nothing hdata =>
      refine .write [] [] (by rw [htask, hdata]; rfl) rfl rfl ?_
      rw [written_of_some houtput, List.append_nil]
      rfl
    | refused hreader =>
      refine .refused _ htask rfl rfl ?_
      rw [written_of_some houtput]
      rfl
    | put n room =>
      refine .write _ _ (by rw [htask, List.take_append_drop]) rfl rfl ?_
      rw [written_of_some houtput]
      exact Pipe.put_allPut ..
  | hungUp htask =>
    refine .of_task htask (fun _ _ h => by cases h) (fun _ _ h => by cases h) ?_ rfl
    unfold given goOn
    cases m.input <;> rfl
  | called reply htask hother =>
    refine .of_task htask ?_ ?_ rfl rfl
    · rintro limit resume ⟨⟩
      exact hother trivial
    · rintro data resume ⟨⟩
      exact hother trivial

theorem Stepped.keeps_input (h : m.Stepped m') {t : Pipe} (ht : m.input = some t) (hreader : t.readerOpen = true) :
    ∃ t', m'.input = some t' ∧
      (t'.readerOpen = true ∨ m'.isEnded = true ∨ ∃ resume, m.task = .running (.ask (.hangUp .pipe) resume)) := by
  cases h with
  | finished htask =>
    refine ⟨t.closeReader, ?_, .inr (.inl rfl)⟩
    show m.input.map _ = _
    rw [ht]
    rfl
  | unfed htask hinput => exact ⟨t, ht, .inl hreader⟩
  | read htask hinput hreads =>
    rw [hinput] at ht
    cases ht
    refine ⟨_, rfl, .inl ?_⟩
    cases hreads with
    | refused hclosed => exact hreader
    | unasked hlimit => exact hreader
    | ended hopen hbuffer hwriter => exact hreader
    | taken n hdata => exact hreader
  | unheard htask houtput => exact ⟨t, ht, .inl hreader⟩
  | write htask houtput hwrites => exact ⟨t, ht, .inl hreader⟩
  | hungUp htask =>
    refine ⟨t.closeReader, ?_, .inr (.inr ⟨_, htask⟩)⟩
    show m.input.map _ = _
    rw [ht]
    rfl
  | called reply htask hother => exact ⟨t, ht, .inl hreader⟩

theorem Stepped.recorded (h : m.Stepped m') : m.Recorded m' :=
  ⟨h.exchange, fun _ => h.keeps_input⟩

theorem Recorded.refl (m : Member) : m.Recorded m :=
  ⟨.quiet (fun _ _ _ => rfl) (fun _ _ _ => rfl) rfl rfl, fun t ht hreader => ⟨t, ht, .inl hreader⟩⟩

/-- A relay that reads what a stage has written does not count as something it writes. -/
theorem Recorded.withOutput {output : Option Pipe} (h : Option.Rel Pipe.ReaderMoved m.output output) :
    m.Recorded { m with output } := by
  refine ⟨.quiet (fun _ _ _ => rfl) (fun _ _ _ => rfl) rfl (putInto_of_moved h), ?_⟩
  intro t ht hreader
  exact ⟨t, ht, .inl hreader⟩

/-- A relay that writes to the input of a stage does not count as something it is given. -/
theorem Recorded.withInput {input : Option Pipe} (h : Option.Rel Pipe.WriterMoved m.input input) :
    m.Recorded { m with input } := by
  refine ⟨.quiet (fun _ _ _ => rfl) (fun _ _ _ => rfl) (takenFrom_of_moved h) rfl, ?_⟩
  intro t ht hreader
  rw [ht] at h
  cases h with
  | some hmoved => exact ⟨_, rfl, .inl (hmoved.readerOpen.trans hreader)⟩

end Member

namespace Network

variable {programs : Programs} {ctx : Context} {p : Pipeline} {net next : Network}

/-- Starting a stage leaves those that were started before as they are. -/
theorem start_members {inputSize outputSize : Nat} (h : net.start programs ctx inputSize outputSize = some next) :
    ∃ added, next.members = net.members ++ added := by
  unfold start at h
  split at h
  · cases h
    exact ⟨[], (List.append_nil _).symm⟩
  · cases h
    exact ⟨[], (List.append_nil _).symm⟩
  · rename_i m _
    cases h
    exact ⟨[m], rfl⟩
  · split at h
    · cases h
      exact ⟨[], (List.append_nil _).symm⟩
    · cases h

/-- Every move counts what the stages read and write. -/
theorem Invariant.recorded (h : net.Invariant programs p) {move : Move}
    (hstep : net.step programs ctx move = some next) {i : Nat} {m : Member} (hm : net.members[i]? = some m) :
    ∃ m', next.members[i]? = some m' ∧ m.Recorded m' := by
  cases move with
  | start inputSize outputSize =>
    obtain ⟨added, hadded⟩ := start_members hstep
    refine ⟨m, ?_, .refl m⟩
    rw [hadded, List.getElem?_append_left (List.getElem?_eq_some_iff.1 hm).1]
    exact hm
  | stage j wish =>
    obtain ⟨n, n', world, hn, hmove, rfl⟩ := stage_cases hstep
    by_cases hj : j = i
    · subst hj
      rw [hm] at hn
      cases hn
      refine ⟨n', ?_, (Member.stepped_of_step hmove).recorded⟩
      exact List.getElem?_set_self (List.getElem?_eq_some_iff.1 hm).1
    · refine ⟨m, ?_, .refl m⟩
      show (net.members.set j n')[i]? = _
      rw [List.getElem?_set_ne hj]
      exact hm
  | relay j wish =>
    obtain ⟨c, before, after, r, hc, hbefore, hafter, hmove, rfl⟩ := relay_cases hstep
    obtain ⟨hread, hwritten, -⟩ := Carrier.step_advanced (h.link hbefore hc hafter) hmove
    dsimp only
    by_cases hafterwards : j + 1 = i
    · subst hafterwards
      rw [hm] at hafter
      cases hafter
      refine ⟨_, List.getElem?_set_self ?_, .withInput hwritten⟩
      rw [List.length_set]
      exact (List.getElem?_eq_some_iff.1 hm).1
    · rw [List.getElem?_set_ne hafterwards]
      by_cases hj : j = i
      · subst hj
        rw [hm] at hbefore
        cases hbefore
        exact ⟨_, List.getElem?_set_self (List.getElem?_eq_some_iff.1 hm).1, .withOutput hread⟩
      · rw [List.getElem?_set_ne hj]
        exact ⟨m, hm, .refl m⟩
  | wait =>
    obtain ⟨statuses, relaysSeen, fault, isOver, rfl⟩ := wait_cases hstep
    exact ⟨m, hm, .refl m⟩

end Network

/-! ## Neighbours -/

/-- What has come through from one stage to the next by the relay between them. -/
structure Faithful (before : Member) (c : Carrier) (after : Member) : Prop where
  /-- All that was written is on its way, in order. -/
  accounted : before.written = after.given ++ heldIn after.input ++ c.carried ++ heldIn before.output
  in_order : after.given <+: before.written
  /-- The end of input comes after all that was written, when no more can be. -/
  end_of_input : ∀ t t' wish limit, after.input = some t → 0 < limit →
    t.read wish limit = some (.ok [], t') → after.given = before.written ∧ before.isEnded = true
  /-- A relay that stops with bytes left, or with more to come, has a stage behind it that is no
      process or that has closed its input. -/
  stops_short : c.finished = true → c.carried ++ heldIn before.output ≠ [] ∨ before.isEnded = false →
    after.role ≠ .process ∨ ∃ t, after.input = some t ∧ t.readerOpen = false

namespace Link

variable {before after : Member} {c : Carrier}

theorem accounted (h : Link before.output c after.input) :
    before.written = after.given ++ heldIn after.input ++ c.carried ++ heldIn before.output :=
  calc before.written
    _ = takenFrom before.output ++ heldIn before.output := putInto_eq before.output
    _ = putInto after.input ++ c.carried ++ heldIn before.output := by rw [h.passed]
    _ = takenFrom after.input ++ heldIn after.input ++ c.carried ++ heldIn before.output := by
      rw [putInto_eq after.input]

/-- When a relay has finished and its second pipe is still read, all has come through. -/
theorem all_passed (h : Link before.output c after.input) (hbefore : before.Sound)
    (hnone : before.output = none → before.isEnded = true) (hfinished : c.finished = true) {t : Pipe}
    (ht : after.input = some t) (hreader : t.readerOpen = true) :
    c.carried = [] ∧ heldIn before.output = [] ∧ before.isEnded = true := by
  cases hs : before.output with
  | none =>
    have hpassed := h.passed
    rw [hs] at hpassed
    have hcarried := (List.append_eq_nil_iff.1 hpassed.symm).2
    exact ⟨hcarried, rfl, hnone hs⟩
  | some s =>
    obtain ⟨hcarried, hbuffer, hwriter⟩ := h.complete hfinished s t hs ht hreader
    rw [hbefore.output_writer s hs] at hwriter
    exact ⟨hcarried, hbuffer, by simpa using hwriter⟩

theorem faithful (h : Link before.output c after.input) (hbefore : before.Sound)
    (hnone : before.output = none → before.isEnded = true)
    (hinput : after.role = .process → after.input.isSome = true) : Faithful before c after := by
  have haccounted := h.accounted
  refine ⟨haccounted, ?_, ?_, ?_⟩
  · rw [haccounted, List.append_assoc, List.append_assoc]
    exact List.prefix_append _ _
  · intro t t' wish limit ht hlimit hread
    obtain ⟨hreader, hbuffer, hwriter⟩ := Pipe.ended_of_read hlimit hread
    have hfinished : c.finished = true := by
      rw [h.target_writer t ht] at hwriter
      simpa using hwriter
    obtain ⟨hcarried, hheld, hended⟩ := h.all_passed hbefore hnone hfinished ht hreader
    have hempty : heldIn after.input = [] := by
      rw [ht]
      exact hbuffer
    rw [hempty, hcarried, hheld] at haccounted
    simp only [List.append_nil] at haccounted
    exact ⟨haccounted.symm, hended⟩
  · intro hfinished hleft
    by_cases hrole : after.role = .process
    · obtain ⟨t, ht⟩ := Option.isSome_iff_exists.1 (hinput hrole)
      refine .inr ⟨t, ht, ?_⟩
      by_contra hopen
      have hreader : t.readerOpen = true := by simpa using hopen
      obtain ⟨hcarried, hheld, hended⟩ := h.all_passed hbefore hnone hfinished ht hreader
      rcases hleft with hbytes | hrunning
      · rw [hcarried, hheld] at hbytes
        exact hbytes rfl
      · rw [hended] at hrunning
        cases hrunning
    · exact .inl hrole

end Link

/-! ## Pipelines -/

namespace Network

variable {programs : Programs} {ctx : Context} {p : Pipeline} {net : Network}

namespace Invariant

/-- Behind the first stage, a process always has a pipe at its input. -/
theorem process_has_input (h : net.Invariant programs p) {i : Nat} {m : Member}
    (hm : net.members[i + 1]? = some m) (hrole : m.role = .process) : m.input.isSome = true := by
  refine (h.members _ m hm).2.input_iff.2 ⟨hrole, ?_⟩
  intro s hs
  refine p.placed.1 s (List.mem_iff_getElem?.2 ⟨i, ?_⟩)
  rw [List.getElem?_drop, Nat.add_comm]
  exact hs

/-- Before the last stage, only one that never ran has no pipe at its output. -/
theorem ended_of_no_output (h : net.Invariant programs p) {i : Nat} {before after : Member}
    (hbefore : net.members[i]? = some before) (hafter : net.members[i + 1]? = some after)
    (hnone : before.output = none) : before.isEnded = true := by
  obtain ⟨hsound, hwired⟩ := h.members i before hbefore
  have hrange := (h.members _ after hafter).2.in_range
  by_cases hrole : before.role = .absent
  · exact hsound.absent_ended hrole
  · have hsome := hwired.output_iff.2 ⟨hrole, hrange⟩
    rw [hnone] at hsome
    cases hsome

theorem faithful (h : net.Invariant programs p) {i : Nat} {before after : Member} {c : Carrier}
    (hbefore : net.members[i]? = some before) (hc : net.carriers[i]? = some c)
    (hafter : net.members[i + 1]? = some after) : Faithful before c after :=
  (h.link hbefore hc hafter).faithful (h.members i before hbefore).1
    (h.ended_of_no_output hbefore hafter) (h.process_has_input hafter)

theorem nothing_after_absent (h : net.Invariant programs p) {i : Nat} {before after : Member} {c : Carrier}
    (hbefore : net.members[i]? = some before) (hc : net.carriers[i]? = some c)
    (hafter : net.members[i + 1]? = some after) (hrole : before.role = .absent) :
    before.output = none ∧ putInto after.input = [] := by
  have hnone : before.output = none := by
    by_contra hsome
    have hisSome := Option.isSome_iff_ne_none.2 hsome
    exact ((h.members i before hbefore).2.output_iff.1 hisSome).1 hrole
  have hpassed := (h.link hbefore hc hafter).passed
  rw [hnone] at hpassed
  exact ⟨hnone, (List.append_eq_nil_iff.1 hpassed.symm).1⟩

/-- Behind a stage that never ran, the relay closes the pipe in its next move if it has not yet. -/
theorem atEnd_after_absent (h : net.Invariant programs p) (ctx : Context) {i : Nat} {before after : Member}
    {c : Carrier} (hbefore : net.members[i]? = some before) (hc : net.carriers[i]? = some c)
    (hafter : net.members[i + 1]? = some after) (hrole : before.role = .absent) {t : Pipe}
    (ht : after.input = some t) (hreader : t.readerOpen = true) :
    t.AtEnd ∨ ∀ wish, ∃ next t', net.step programs ctx (.relay i wish) = some next ∧
      next.inputOf (i + 1) = some t' ∧ t'.AtEnd := by
  obtain ⟨hnone, hput⟩ := h.nothing_after_absent hbefore hc hafter hrole
  rw [ht] at hput
  have hbuffer : t.buffer = [] := (List.append_eq_nil_iff.1 (t.allPut_eq.symm.trans hput)).2
  have hwriter := (h.link hbefore hc hafter).target_writer t ht
  cases hfinished : c.finished with
  | true =>
    rw [hfinished] at hwriter
    exact .inl (Pipe.atEnd_of_empty hreader hbuffer hwriter)
  | false =>
    refine .inr fun wish => ?_
    have hmove : c.step wish none (some t) = some ({ c with finished := true }, none, some t.closeWriter) := by
      simp [Carrier.step, hfinished]
    rw [h.step_relay ctx wish hbefore hc hafter, hnone, ht, hmove]
    refine ⟨_, t.closeWriter, rfl, ?_, Pipe.atEnd_of_empty hreader hbuffer rfl⟩
    refine bind_set_self (m := after) ?_
    rw [List.getElem?_set_ne (by omega)]
    exact hafter

theorem first_atEnd (h : net.Invariant programs p) {m : Member} {s : Stage} (hm : net.members[0]? = some m)
    (hs : p.stages[0]? = some s) (hstdin : s.stdin? = none) (hrole : m.role = .process) :
    m.given = [] ∧ ∃ t, m.input = some t ∧ (t.readerOpen = true → t.AtEnd) := by
  have hsome : m.input.isSome = true := by
    refine (h.members 0 m hm).2.input_iff.2 ⟨hrole, ?_⟩
    intro s' hs'
    rw [hs] at hs'
    cases hs'
    exact hstdin
  obtain ⟨t, ht⟩ := Option.isSome_iff_exists.1 hsome
  obtain ⟨hput, hwriter⟩ := h.first t ((inputOf_eq hm).trans ht)
  obtain ⟨htaken, hbuffer⟩ := List.append_eq_nil_iff.1 (t.allPut_eq.symm.trans hput)
  refine ⟨?_, t, ht, fun hreader => Pipe.atEnd_of_empty hreader hbuffer hwriter⟩
  rw [Member.given_of_some ht]
  exact htaken

end Invariant

/-- What can be said about the bytes in a network. -/
structure Conserving (programs : Programs) (ctx : Context) (p : Pipeline) (net : Network) : Prop where
  /-- Any two neighbours are joined by a relay that is faithful. -/
  neighbours : ∀ (i : Nat) (before after : Member), net.members[i]? = some before →
    net.members[i + 1]? = some after → ∃ c, net.carriers[i]? = some c ∧ Faithful before c after
  /-- Behind a stage that never ran there is the end of input, at the next move of the relay at the
      latest, and nothing else. -/
  after_absent : ∀ (i : Nat) (before after : Member), net.members[i]? = some before →
    net.members[i + 1]? = some after → before.role = .absent →
    after.given = [] ∧ ∀ t, after.input = some t → t.readerOpen = true →
      t.AtEnd ∨ ∀ wish, ∃ next t', net.step programs ctx (.relay i wish) = some next ∧
        next.inputOf (i + 1) = some t' ∧ t'.AtEnd
  /-- The first stage is at the end of its input from the start, unless a file is in its place. -/
  first_atEnd : ∀ (m : Member) (s : Stage), net.members[0]? = some m → p.stages[0]? = some s →
    s.stdin? = none → m.role = .process →
    m.given = [] ∧ ∃ t, m.input = some t ∧ (t.readerOpen = true → t.AtEnd)
  /-- The stages have the pipes of their places. -/
  wired : ∀ (i : Nat) (m : Member), net.members[i]? = some m → m.Wired p i
  /-- A program that is started reads and writes at the pipes that its stage has. -/
  started : ∀ m, net.starting = some (.done (.ok m)) → ∃ s, p.stages[net.members.length]? = some s ∧
    m.Fresh programs net.members.isEmpty net.waiting.isEmpty s
  /-- All that stages read and write is counted. -/
  recorded : ∀ move next, net.step programs ctx move = some next →
    ∀ (i : Nat) (m : Member), net.members[i]? = some m → ∃ m', next.members[i]? = some m' ∧ m.Recorded m'

/-- No byte is lost, repeated, reordered or made up between neighbouring stages, in whatever order and
    by whatever number of bytes the stages and relays of a pipeline move. -/
theorem conserving_of_reachable {w : World} (h : Reachable programs ctx p w net) :
    net.Conserving programs ctx p := by
  have hinv := h.invariant
  have hrelay : ∀ {i : Nat} {after : Member}, net.members[i + 1]? = some after →
      ∃ c, net.carriers[i]? = some c :=
    fun hafter => hinv.carrier_exists (List.getElem?_eq_some_iff.1 hafter).1
  refine ⟨?_, ?_, ?_, ?_, ?_, ?_⟩
  · intro i before after hbefore hafter
    obtain ⟨c, hc⟩ := hrelay hafter
    exact ⟨c, hc, hinv.faithful hbefore hc hafter⟩
  · intro i before after hbefore hafter hrole
    obtain ⟨c, hc⟩ := hrelay hafter
    refine ⟨?_, fun t => hinv.atEnd_after_absent ctx hbefore hc hafter hrole⟩
    have hput := (hinv.nothing_after_absent hbefore hc hafter hrole).2
    rw [putInto_eq] at hput
    exact (List.append_eq_nil_iff.1 hput).1
  · intro m s hm hs
    exact hinv.first_atEnd hm hs
  · intro i m hm
    exact (hinv.members i m hm).2
  · intro m hstart
    obtain ⟨-, s, hs, hwp⟩ := hinv.starting _ hstart
    exact ⟨s, hs, (Job.wp_done _ _).1 hwp m rfl⟩
  · intro move next hstep i m hm
    exact hinv.recorded hstep hm

/-- The first stage of the sample has written two bytes here, and the second was given one. -/
theorem conserving_of_reachable_half_way : ∃ net,
    Reachable Sample.programs Sample.context Sample.pipeline Sample.world net ∧
    net.members.map Member.written = [[104, 105], []] ∧ net.members.map Member.given = [[], [104]] ∧
    net.Conserving Sample.programs Sample.context Sample.pipeline := by
  have hrun : ((Sample.after [.stage 0 1, .stage 0 1, .relay 0 1, .relay 0 1, .stage 1 1]).map fun net =>
      (net.members.map Member.written, net.members.map Member.given)) =
      some ([[104, 105], []], [[], [104]]) := by
    decide +kernel
  obtain ⟨net, hnet, hfacts⟩ := Option.map_eq_some_iff.1 hrun
  obtain ⟨hwritten, hgiven⟩ := Prod.mk.inj hfacts
  have hreachable := Sample.reachable hnet
  exact ⟨net, hreachable, hwritten, hgiven, conserving_of_reachable hreachable⟩

end Network

end Conch
