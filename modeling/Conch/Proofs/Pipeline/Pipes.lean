-- SUMMARY: What stages and relays do to the pipes between them in one move.
import Conch.Pipeline.Network

/-!
# Moves over pipes

A pipe has one reader and one writer. Whoever reads leaves what was put in alone,
and whoever writes leaves what was taken out alone. `ReaderMoved` and
`WriterMoved` say so, and every move of a stage or of a relay is one of the first
kind at one pipe and one of the second kind at another.

Between two stages `Link` is kept: all that a relay has taken out of the first
pipe it has put into the second, except for what it carries. It holds both of its
ends open until it finishes, and as long as the second pipe has a reader it only
finishes when the first one is empty and has no writer left.
-/

namespace Conch

/-! ## Reading and writing -/

namespace Pipe

theorem allPut_eq (p : Pipe) : p.allPut = p.allTaken ++ p.buffer := p.conserved

@[simp] theorem put_allPut (p : Pipe) (data : Bytes) (room : p.buffer.length + data.length ≤ p.capacity) :
    (p.put data room).allPut = p.allPut ++ data := by
  simp [put, allPut]

@[simp] theorem take_allTaken (p : Pipe) (n : Nat) :
    (p.take n).2.allTaken = p.allTaken ++ (p.take n).1 := by
  simp [take, allTaken]

/-- What reading up to a number of bytes comes to. -/
inductive Reads (p : Pipe) (limit : Nat) : Except Errno Bytes → Pipe → Prop
  | refused (hreader : p.readerOpen = false) : Reads p limit (.error .badDescriptor) p
  | unasked (hlimit : limit = 0) : Reads p limit (.ok []) p
  | ended (hreader : p.readerOpen = true) (hbuffer : p.buffer = []) (hwriter : p.writerOpen = false) :
    Reads p limit (.ok []) p
  | taken (n : Nat) (hdata : (p.take n).1 ≠ []) : Reads p limit (.ok (p.take n).1) (p.take n).2

/-- What writing bytes comes to. -/
inductive Writes (p : Pipe) (data : Bytes) : Except Errno Bytes → Pipe → Prop
  | nothing (hdata : data = []) : Writes p data (.ok []) p
  | refused (hreader : p.readerOpen = false) : Writes p data (.error .brokenPipe) p
  | put (n : Nat) (room : p.buffer.length + (data.take n).length ≤ p.capacity) :
    Writes p data (.ok (data.drop n)) (p.put (data.take n) room)

variable {p p' : Pipe} {wish limit : Nat} {data : Bytes} {reply : Except Errno Bytes}

theorem reads_of_read (h : p.read wish limit = some (reply, p')) : p.Reads limit reply p' := by
  unfold read at h
  split at h
  · rename_i hreader
    cases h
    exact .refused (by simpa using hreader)
  rename_i hreader
  split at h
  · rename_i hlimit
    cases h
    exact .unasked hlimit
  rename_i hlimit
  split at h
  · rename_i hbuffer
    split at h
    · cases h
    · rename_i hwriter
      cases h
      exact .ended (by simpa using hreader) (List.isEmpty_iff.1 hbuffer) (by simpa using hwriter)
  · rename_i hbuffer
    cases h
    refine .taken _ ?_
    have hpos := transfer_pos wish (Nat.pos_of_ne_zero hlimit)
    intro hnone
    rcases List.take_eq_nil_iff.1 hnone with hzero | hnil
    · omega
    · exact hbuffer (List.isEmpty_iff.2 hnil)

/-- A pipe at which a reader has to wait: it is empty, and more may come. -/
structure Starved (p : Pipe) : Prop where
  reader : p.readerOpen = true
  empty : p.buffer = []
  writer : p.writerOpen = true

/-- A pipe at which a writer has to wait: it is full, and may still be read. -/
structure Jammed (p : Pipe) : Prop where
  reader : p.readerOpen = true
  full : p.capacity ≤ p.buffer.length

theorem starved_of_read (h : p.read wish limit = none) : p.Starved := by
  unfold read at h
  split at h
  · cases h
  rename_i hreader
  split at h
  · cases h
  split at h
  · rename_i hbuffer
    split at h
    · rename_i hwriter
      exact ⟨by simpa using hreader, List.isEmpty_iff.1 hbuffer, hwriter⟩
    · cases h
  · cases h

theorem writes_of_write (h : p.write wish data = some (reply, p')) : p.Writes data reply p' := by
  unfold write at h
  split at h
  · rename_i hdata
    cases h
    exact .nothing (List.isEmpty_iff.1 hdata)
  split at h
  · rename_i hreader
    cases h
    exact .refused (by simpa using hreader)
  split at h
  · cases h
  · cases h
    exact .put _ _

theorem jammed_of_write (h : p.write wish data = none) : p.Jammed := by
  unfold write at h
  split at h
  · cases h
  split at h
  · cases h
  rename_i hreader
  split at h
  · rename_i hfull
    exact ⟨by simpa using hreader, hfull⟩
  · cases h

/-- A pipe has room for a byte at least, so a full one is not empty. -/
theorem Jammed.not_empty (h : p.Jammed) : p.buffer ≠ [] := by
  intro hnil
  have hpos := p.capacity_pos
  have hfull := h.full
  rw [hnil, List.length_nil] at hfull
  omega

/-! ## The two sides of a pipe -/

/-- What the reader of a pipe may change: it takes bytes out, or closes its end. -/
structure ReaderMoved (p p' : Pipe) : Prop where
  allPut : p'.allPut = p.allPut
  writerOpen : p'.writerOpen = p.writerOpen
  readerOpen : p'.readerOpen = true → p.readerOpen = true

/-- What the writer of a pipe may change while its end is open: it puts bytes in, or closes its end. -/
structure WriterMoved (p p' : Pipe) : Prop where
  allTaken : p'.allTaken = p.allTaken
  readerOpen : p'.readerOpen = p.readerOpen
  frozen : p.writerOpen = false → p' = p

theorem ReaderMoved.refl (p : Pipe) : p.ReaderMoved p := ⟨rfl, rfl, id⟩

theorem WriterMoved.refl (p : Pipe) : p.WriterMoved p := ⟨rfl, rfl, fun _ => rfl⟩

theorem Reads.moved (h : p.Reads limit reply p') : p.ReaderMoved p' := by
  cases h with
  | refused hreader => exact .refl p
  | unasked hlimit => exact .refl p
  | ended hreader hbuffer hwriter => exact .refl p
  | taken n hdata => exact ⟨rfl, rfl, id⟩

theorem Writes.moved (h : p.Writes data reply p') (hopen : p.writerOpen = true) : p.WriterMoved p' := by
  cases h with
  | nothing hdata => exact .refl p
  | refused hreader => exact .refl p
  | put n room => exact ⟨rfl, rfl, fun hclosed => by simp [hopen] at hclosed⟩

theorem Writes.writerOpen (h : p.Writes data reply p') : p'.writerOpen = p.writerOpen := by
  cases h with
  | nothing hdata => rfl
  | refused hreader => rfl
  | put n room => rfl

theorem closeReader_moved (p : Pipe) : p.ReaderMoved p.closeReader :=
  ⟨rfl, rfl, fun hopen => by cases hopen⟩

theorem closeWriter_moved (hopen : p.writerOpen = true) : p.WriterMoved p.closeWriter :=
  ⟨rfl, rfl, fun hclosed => by simp [hopen] at hclosed⟩

end Pipe

section OptionRel

variable {α : Type} {r : α → α → Prop} {o o' : Option α}

theorem optionRel_refl (hr : ∀ a, r a a) (o : Option α) : Option.Rel r o o := by
  cases o with
  | none => exact .none
  | some a => exact .some (hr a)

theorem optionRel_map {f : α → α} (hf : ∀ a, o = some a → r a (f a)) : Option.Rel r o (o.map f) := by
  cases o with
  | none => exact .none
  | some a => exact .some (hf a rfl)

theorem optionRel_isSome (h : Option.Rel r o o') : o'.isSome = o.isSome := by
  cases h with
  | none => rfl
  | some h => rfl

/-- What there is afterwards comes from something that was there before. -/
theorem optionRel_some_right {a' : α} (h : Option.Rel r o (some a')) : ∃ a, o = some a ∧ r a a' := by
  cases h with
  | some h => exact ⟨_, rfl, h⟩

end OptionRel

/-! ## Stages -/

/-- The calls that are about the pipes of a stage. -/
def Call.OnPipe : Call → Prop
  | .read .pipe _ => True
  | .write .pipe _ => True
  | .hangUp .pipe => True
  | _ => False

namespace Member

/-- How a stage goes on after writing, when it is told the rest that is still to be written. -/
def afterWrite (resume : Except Errno Unit → Job StageEnd) : Except Errno Bytes → Job StageEnd
  | .error cause => resume (.error cause)
  | .ok [] => resume (.ok ())
  | .ok (b :: rest) => .ask (.write .pipe (b :: rest)) resume

/-- What one move of a stage can be. -/
inductive Stepped (m : Member) : Member → Prop
  | finished {e : StageEnd} (htask : m.task = .running (.done e)) : Stepped m (m.finish e)
  | unfed {limit : Nat} {resume : Except Errno Bytes → Job StageEnd}
      (htask : m.task = .running (.ask (.read .pipe limit) resume)) (hinput : m.input = none) :
    Stepped m (m.goOn (resume (.ok [])))
  | read {limit : Nat} {resume : Except Errno Bytes → Job StageEnd} {t t' : Pipe}
      {reply : Except Errno Bytes} (htask : m.task = .running (.ask (.read .pipe limit) resume))
      (hinput : m.input = some t) (hreads : t.Reads limit reply t') :
    Stepped m ({ m with input := some t' }.goOn (resume reply))
  | unheard {data : Bytes} {resume : Except Errno Unit → Job StageEnd}
      (htask : m.task = .running (.ask (.write .pipe data) resume)) (houtput : m.output = none) :
    Stepped m (m.goOn (resume (.error .brokenPipe)))
  | write {data : Bytes} {resume : Except Errno Unit → Job StageEnd} {s s' : Pipe}
      {reply : Except Errno Bytes} (htask : m.task = .running (.ask (.write .pipe data) resume))
      (houtput : m.output = some s) (hwrites : s.Writes data reply s') :
    Stepped m ({ m with output := some s' }.goOn (afterWrite resume reply))
  | hungUp {resume : Unit → Job StageEnd} (htask : m.task = .running (.ask (.hangUp .pipe) resume)) :
    Stepped m ({ m with input := m.input.map Pipe.closeReader }.goOn (resume ()))
  | called {call : Call} {resume : call.Reply → Job StageEnd} (reply : call.Reply)
      (htask : m.task = .running (.ask call resume)) (hother : ¬ call.OnPipe) :
    Stepped m (m.goOn (resume reply))

theorem stepped_of_step {m m' : Member} {w w' : World} {wish : Nat}
    (h : m.step wish w = some (m', w')) : m.Stepped m' := by
  unfold step at h
  split at h
  · cases h
  · rename_i e htask
    cases h
    exact .finished htask
  · rename_i limit resume htask
    split at h
    · rename_i hinput
      cases h
      exact .unfed htask hinput
    · rename_i t hinput
      split at h
      · cases h
      · rename_i reply t' hread
        cases h
        exact .read htask hinput (Pipe.reads_of_read hread)
  · rename_i data resume htask
    split at h
    · rename_i houtput
      cases h
      exact .unheard htask houtput
    · rename_i s houtput
      split at h
      · cases h
      · rename_i cause s' hwrite
        cases h
        exact .write htask houtput (Pipe.writes_of_write hwrite)
      · rename_i s' hwrite
        cases h
        exact .write htask houtput (Pipe.writes_of_write hwrite)
      · rename_i rest s' hrest hwrite
        cases h
        cases rest with
        | nil => exact absurd rfl hrest
        | cons b rest => exact .write htask houtput (Pipe.writes_of_write hwrite)
  · rename_i resume htask
    cases h
    exact .hungUp htask
  · rename_i call resume hread hwrite hhangUp htask
    cases h
    refine .called _ htask ?_
    intro hpipe
    unfold Call.OnPipe at hpipe
    split at hpipe
    · exact hread _ _ rfl .rfl
    · exact hwrite _ _ rfl .rfl
    · exact hhangUp _ rfl .rfl
    · exact hpipe

/-- A stage holds its end of the pipe at its output as long as it runs, and lets go of both when it
    ends. A stage that never ran has ended. -/
structure Sound (m : Member) : Prop where
  output_writer : ∀ p, m.output = some p → p.writerOpen = !m.isEnded
  input_reader : m.isEnded = true → ∀ p, m.input = some p → p.readerOpen = false
  absent_ended : m.role = .absent → m.isEnded = true

/-- What one move of a stage may change. -/
structure Moved (m m' : Member) : Prop where
  role : m'.role = m.role
  input : Option.Rel Pipe.ReaderMoved m.input m'.input
  output : Option.Rel Pipe.WriterMoved m.output m'.output
  sound : m'.Sound

variable {m : Member} {w : World}

theorem Sound.goOn (hm : m.Sound) (hrunning : m.isEnded = false) {input output : Option Pipe}
    (hinput : Option.Rel Pipe.ReaderMoved m.input input)
    (houtput : Option.Rel Pipe.WriterMoved m.output output)
    (hopen : ∀ p, output = some p → p.writerOpen = true) (job : Job StageEnd) :
    m.Moved ({ m with input, output }.goOn job) := by
  refine ⟨rfl, hinput, houtput, ?_⟩
  refine ⟨hopen, ?_, ?_⟩
  · intro hended
    cases hended
  · intro hrole
    have hended := hm.absent_ended hrole
    rw [hrunning] at hended
    cases hended

theorem Sound.finish (hm : m.Sound) (hrunning : m.isEnded = false) (e : StageEnd) :
    m.Moved (m.finish e) := by
  refine ⟨rfl, optionRel_map fun p _ => p.closeReader_moved, optionRel_map fun p hp => ?_, ?_⟩
  · exact Pipe.closeWriter_moved (by rw [hm.output_writer p hp, hrunning]; rfl)
  refine ⟨?_, ?_, fun _ => rfl⟩
  · intro p hp
    obtain ⟨_, _, rfl⟩ := Option.map_eq_some_iff.1 hp
    rfl
  · intro _ p hp
    obtain ⟨_, _, rfl⟩ := Option.map_eq_some_iff.1 hp
    rfl

theorem isEnded_of_running {job : Job StageEnd} (h : m.task = .running job) : m.isEnded = false := by
  unfold isEnded
  rw [h]

/-- One move of a stage reads from the pipe at its input or writes to the one at its output. -/
theorem Stepped.moved {m' : Member} (h : m.Stepped m') (hm : m.Sound) : m.Moved m' := by
  have hopen : m.isEnded = false → ∀ p, m.output = some p → p.writerOpen = true := by
    intro hrunning p hp
    rw [hm.output_writer p hp, hrunning]
    rfl
  have hinput := optionRel_refl Pipe.ReaderMoved.refl m.input
  have houtput := optionRel_refl Pipe.WriterMoved.refl m.output
  cases h with
  | finished htask => exact hm.finish (isEnded_of_running htask) _
  | unfed htask hnone =>
    have hrunning := isEnded_of_running htask
    exact hm.goOn hrunning hinput houtput (hopen hrunning) _
  | read htask hsome hreads =>
    have hrunning := isEnded_of_running htask
    refine hm.goOn hrunning ?_ houtput (hopen hrunning) _
    rw [hsome]
    exact .some hreads.moved
  | unheard htask hnone =>
    have hrunning := isEnded_of_running htask
    exact hm.goOn hrunning hinput houtput (hopen hrunning) _
  | write htask hsome hwrites =>
    have hrunning := isEnded_of_running htask
    refine hm.goOn hrunning hinput ?_ ?_ _
    · rw [hsome]
      exact .some (hwrites.moved (hopen hrunning _ hsome))
    · rintro _ ⟨⟩
      rw [hwrites.writerOpen]
      exact hopen hrunning _ hsome
  | hungUp htask =>
    have hrunning := isEnded_of_running htask
    exact hm.goOn hrunning (optionRel_map fun p _ => p.closeReader_moved) houtput (hopen hrunning) _
  | called reply htask hother =>
    have hrunning := isEnded_of_running htask
    exact hm.goOn hrunning hinput houtput (hopen hrunning) _

end Member

/-! ## Relays -/

/-- All that was taken out of a pipe, if there is one. -/
def takenFrom (o : Option Pipe) : Bytes := (o.map Pipe.allTaken).getD []

/-- All that was put into a pipe, if there is one. -/
def putInto (o : Option Pipe) : Bytes := (o.map Pipe.allPut).getD []

theorem takenFrom_of_moved {o o' : Option Pipe} (h : Option.Rel Pipe.WriterMoved o o') :
    takenFrom o' = takenFrom o := by
  cases h with
  | none => rfl
  | some hmoved => exact hmoved.allTaken

theorem putInto_of_moved {o o' : Option Pipe} (h : Option.Rel Pipe.ReaderMoved o o') :
    putInto o' = putInto o := by
  cases h with
  | none => rfl
  | some hmoved => exact hmoved.allPut

/-- What holds of a relay and of the pipes before and after it. -/
structure Link (source : Option Pipe) (c : Carrier) (target : Option Pipe) : Prop where
  source_reader : ∀ s, source = some s → s.readerOpen = !c.finished
  target_writer : ∀ t, target = some t → t.writerOpen = !c.finished
  passed : takenFrom source = putInto target ++ c.carried
  unread : target = none → c.carried = []
  complete : c.finished = true → ∀ s t, source = some s → target = some t → t.readerOpen = true →
    c.carried = [] ∧ s.buffer = [] ∧ s.writerOpen = false

namespace Link

variable {source source' target target' : Option Pipe} {c : Carrier}

/-- The stages before and after a relay do not break its link. -/
theorem of_moved (h : Link source c target) (hsource : Option.Rel Pipe.WriterMoved source source')
    (htarget : Option.Rel Pipe.ReaderMoved target target') : Link source' c target' := by
  refine ⟨?_, ?_, ?_, ?_, ?_⟩
  · rintro s' rfl
    obtain ⟨s, rfl, hs⟩ := optionRel_some_right hsource
    rw [hs.readerOpen]
    exact h.source_reader s rfl
  · rintro t' rfl
    obtain ⟨t, rfl, ht⟩ := optionRel_some_right htarget
    rw [ht.writerOpen]
    exact h.target_writer t rfl
  · rw [takenFrom_of_moved hsource, putInto_of_moved htarget]
    exact h.passed
  · rintro rfl
    cases htarget
    exact h.unread rfl
  · rintro hfinished s' t' rfl rfl hreader
    obtain ⟨s, rfl, hs⟩ := optionRel_some_right hsource
    obtain ⟨t, rfl, ht⟩ := optionRel_some_right htarget
    -- With a reader left, the first pipe has no writer any more, and so it has not changed.
    have hcomplete := h.complete hfinished s t rfl rfl (ht.readerOpen hreader)
    rw [hs.frozen hcomplete.2.2]
    exact hcomplete

/-- What one move of a relay comes to. -/
structure Advanced (source : Option Pipe) (target : Option Pipe)
    (r : Carrier × Option Pipe × Option Pipe) : Prop where
  source_moved : Option.Rel Pipe.ReaderMoved source r.2.1
  target_moved : Option.Rel Pipe.WriterMoved target r.2.2
  link : Link r.2.1 r.1 r.2.2

theorem finish (h : Link source c target) (hgoing : c.finished = false)
    (hcomplete : ∀ s t, source = some s → target = some t → t.readerOpen = true →
      c.carried = [] ∧ s.buffer = [] ∧ s.writerOpen = false) :
    Advanced source target
      ({ c with finished := true }, source.map Pipe.closeReader, target.map Pipe.closeWriter) := by
  have htaken : takenFrom (source.map Pipe.closeReader) = takenFrom source := by
    cases source with
    | none => rfl
    | some s => rfl
  have hput : putInto (target.map Pipe.closeWriter) = putInto target := by
    cases target with
    | none => rfl
    | some t => rfl
  refine ⟨optionRel_map fun s _ => s.closeReader_moved, optionRel_map fun t ht => ?_, ?_⟩
  · exact Pipe.closeWriter_moved (by rw [h.target_writer t ht, hgoing]; rfl)
  refine ⟨?_, ?_, ?_, ?_, ?_⟩
  · intro s hs
    obtain ⟨_, _, rfl⟩ := Option.map_eq_some_iff.1 hs
    rfl
  · intro t ht
    obtain ⟨_, _, rfl⟩ := Option.map_eq_some_iff.1 ht
    rfl
  · rw [htaken, hput]
    exact h.passed
  · intro hnone
    exact h.unread (Option.map_eq_none_iff.1 hnone)
  · intro _ s' t' hs' ht' hreader
    obtain ⟨s, hs, rfl⟩ := Option.map_eq_some_iff.1 hs'
    obtain ⟨t, ht, rfl⟩ := Option.map_eq_some_iff.1 ht'
    exact hcomplete s t hs ht hreader

/-- A relay that carries nothing takes a chunk out of the first pipe. -/
theorem take {s t : Pipe} (h : Link (some s) c (some t)) (hgoing : c.finished = false)
    (hcarried : c.carried = []) (n : Nat) :
    Advanced (some s) (some t) ({ c with carried := (s.take n).1 }, some (s.take n).2, some t) := by
  refine ⟨.some ⟨rfl, rfl, id⟩, .some (.refl t), ?_⟩
  refine ⟨?_, ?_, ?_, ?_, ?_⟩
  · rintro _ ⟨⟩
    exact h.source_reader s rfl
  · rintro _ ⟨⟩
    exact h.target_writer t rfl
  · have hpassed : s.allTaken = t.allPut ++ c.carried := h.passed
    show (s.take n).2.allTaken = t.allPut ++ (s.take n).1
    rw [Pipe.take_allTaken, hpassed, hcarried, List.append_nil]
  · rintro ⟨⟩
  · intro hfinished
    simp [hgoing] at hfinished

/-- A relay puts a part of what it carries into the second pipe. -/
theorem put {s t : Pipe} (h : Link (some s) c (some t)) (hgoing : c.finished = false) (n : Nat)
    (room : t.buffer.length + (c.carried.take n).length ≤ t.capacity) :
    Advanced (some s) (some t)
      ({ c with carried := c.carried.drop n }, some s, some (t.put (c.carried.take n) room)) := by
  have hopen : t.writerOpen = true := by
    rw [h.target_writer t rfl, hgoing]
    rfl
  refine ⟨.some (.refl s), .some ((Pipe.Writes.put n room).moved hopen), ?_⟩
  refine ⟨?_, ?_, ?_, ?_, ?_⟩
  · rintro _ ⟨⟩
    exact h.source_reader s rfl
  · rintro _ ⟨⟩
    exact h.target_writer t rfl
  · have hpassed : s.allTaken = t.allPut ++ c.carried := h.passed
    show s.allTaken = (t.put _ room).allPut ++ c.carried.drop n
    rw [Pipe.put_allPut, List.append_assoc, List.take_append_drop, hpassed]
  · rintro ⟨⟩
  · intro hfinished
    simp [hgoing] at hfinished

end Link

/-- One move of a relay keeps its link. It reads from the first pipe and writes to the second. -/
theorem Carrier.step_advanced {c : Carrier} {source target : Option Pipe} {wish : Nat}
    {r : Carrier × Option Pipe × Option Pipe} (hlink : Link source c target)
    (h : c.step wish source target = some r) : Link.Advanced source target r := by
  unfold Carrier.step at h
  dsimp only at h
  split at h
  · cases h
  rename_i hnot
  have hgoing : c.finished = false := by simpa using hnot
  split at h
  · rename_i s t
    split at h
    · rename_i hempty
      have hcarried : c.carried = [] := List.isEmpty_iff.1 hempty
      split at h
      · cases h
      · rename_i b data s' hread
        cases h
        generalize hdata : b :: data = chunk at hread
        cases Pipe.reads_of_read hread with
        | unasked hlimit => cases hdata
        | ended hreader hbuffer hwriter => cases hdata
        | taken n hne => exact hlink.take hgoing hcarried n
      · rename_i r' hnotData hread
        cases h
        refine hlink.finish hgoing ?_
        rintro _ _ ⟨⟩ ⟨⟩ _
        obtain ⟨reply, s'⟩ := r'
        cases Pipe.reads_of_read hread with
        | refused hreader =>
          rw [hlink.source_reader s rfl, hgoing] at hreader
          cases hreader
        | unasked hlimit => cases hlimit
        | ended hreader hbuffer hwriter => exact ⟨hcarried, hbuffer, hwriter⟩
        | taken n hne =>
          obtain ⟨b, data, hdata⟩ := List.exists_cons_of_ne_nil hne
          rw [hdata] at hnotData
          exact absurd rfl (hnotData b data _)
    · rename_i hcarries
      split at h
      · cases h
      · rename_i rest t' hwrite
        cases h
        cases Pipe.writes_of_write hwrite with
        | nothing hdata => exact absurd (List.isEmpty_iff.2 hdata) hcarries
        | put n room => exact hlink.put hgoing n room
      · rename_i hwrite
        cases h
        refine hlink.finish hgoing ?_
        rintro _ _ ⟨⟩ ⟨⟩ hreader
        cases Pipe.writes_of_write hwrite with
        | refused hclosed =>
          rw [hclosed] at hreader
          cases hreader
  · rename_i hmissing
    cases h
    refine hlink.finish hgoing ?_
    intro s t hs ht
    exact absurd ht (hmissing s t hs)

end Conch
