-- SUMMARY: What jobs do, as the list of their calls with the replies, and what can be read off such a list.
import Conch.Proofs.System.Tracking

/-!
# Exchanges

`Job.makes` says that a job can make certain calls, with certain replies, and come to
a result. Nothing is assumed of the replies, so whatever is shown of all that a job
can make holds in any world, also in one that others change in the meantime.

A list of exchanges is a trace. From it can be read off which files were opened, which
are open at the end and what was told on the console.
-/

namespace Conch

variable {α β : Type}

/-- A call and what it was answered with. -/
structure Exchange where
  call : Call
  reply : call.Reply

/-! ## Jobs -/

namespace Job

/-- A job can make the calls of a trace, with these replies, and come to a result. -/
def makes : Job α → List Exchange → α → Prop
  | done a, trace, result => trace = [] ∧ result = a
  | ask c resume, trace, result =>
    ∃ reply rest, trace = ⟨c, reply⟩ :: rest ∧ (resume reply).makes rest result

variable {trace : List Exchange}

theorem makes_done {a result : α} : (done a).makes trace result ↔ trace = [] ∧ result = a := Iff.rfl

theorem makes_ask {c : Call} {resume : c.Reply → Job α} {result : α} :
    (ask c resume).makes trace result ↔
      ∃ reply rest, trace = ⟨c, reply⟩ :: rest ∧ (resume reply).makes rest result := Iff.rfl

theorem makes_bind {j : Job α} {f : α → Job β} {b : β} :
    (j >>= f).makes trace b ↔ ∃ a first rest, trace = first ++ rest ∧ j.makes first a ∧ (f a).makes rest b := by
  show (j.bind f).makes trace b ↔ _
  induction j generalizing trace with
  | done a =>
    constructor
    · intro h
      exact ⟨a, [], trace, rfl, ⟨rfl, rfl⟩, h⟩
    · rintro ⟨_, _, rest, rfl, ⟨rfl, rfl⟩, h⟩
      exact h
  | ask c resume ih =>
    constructor
    · rintro ⟨reply, rest, rfl, h⟩
      obtain ⟨a, first, last, rfl, hfirst, hlast⟩ := (ih reply).1 h
      exact ⟨a, ⟨c, reply⟩ :: first, last, rfl, ⟨reply, first, rfl, hfirst⟩, hlast⟩
    · rintro ⟨a, _, last, rfl, ⟨reply, first, rfl, hfirst⟩, hlast⟩
      exact ⟨reply, first ++ last, rfl, (ih reply).2 ⟨a, first, last, rfl, hfirst, hlast⟩⟩

/-- The trace of running a job in a world. -/
def traceIn : Job α → World → List Exchange
  | done _, _ => []
  | ask c resume, w => ⟨c, (w.perform c).1⟩ :: (resume (w.perform c).1).traceIn (w.perform c).2

/-- Running a job is one way in which it can go. -/
theorem makes_traceIn (j : Job α) (w : World) : j.makes (j.traceIn w) (j.run w).1 := by
  induction j generalizing w with
  | done a => exact ⟨rfl, rfl⟩
  | ask c resume ih => exact ⟨_, _, rfl, ih _ _⟩

end Job

/-! ## Stages -/

namespace StageM

/-- What a stage does can make the calls of a trace and come to a result, with the streams as they are
    then. -/
def makes (x : StageM α) (streams : Streams) (trace : List Exchange) (result : Except Fault α) (after : Streams) :
    Prop :=
  Job.makes (x streams) trace (result, after)

variable {streams after : Streams} {trace : List Exchange} {result : Except Fault α}

theorem makes_iff {x : StageM α} :
    makes x streams trace result after ↔ Job.makes (x streams) trace (result, after) := Iff.rfl

@[simp] theorem makes_pure {a : α} :
    makes (pure a) streams trace result after ↔ trace = [] ∧ result = .ok a ∧ after = streams := by
  show (trace = [] ∧ (result, after) = (.ok a, streams)) ↔ _
  rw [Prod.mk.injEq]

@[simp] theorem makes_throw {fault : Fault} :
    makes (throw fault : StageM α) streams trace result after ↔
      trace = [] ∧ result = .error fault ∧ after = streams := by
  show (trace = [] ∧ (result, after) = (.error fault, streams)) ↔ _
  rw [Prod.mk.injEq]

theorem makes_bind {x : StageM β} {f : β → StageM α} :
    makes (x >>= f) streams trace result after ↔
      (∃ b middle first rest, trace = first ++ rest ∧ makes x streams first (.ok b) middle ∧
        makes (f b) middle rest result after) ∨
      ∃ fault, result = .error fault ∧ makes x streams trace (.error fault) after := by
  refine (Job.makes_bind (j := x streams)).trans ?_
  constructor
  · rintro ⟨⟨r, middle⟩, first, rest, rfl, hx, hf⟩
    cases r with
    | ok b => exact .inl ⟨b, middle, first, rest, rfl, hx, hf⟩
    | error fault =>
      obtain ⟨rfl, hsame⟩ := hf
      cases hsame
      rw [List.append_nil]
      exact .inr ⟨fault, rfl, hx⟩
  · rintro (⟨b, middle, first, rest, rfl, hx, hf⟩ | ⟨fault, rfl, hx⟩)
    · exact ⟨(.ok b, middle), first, rest, rfl, hx, hf⟩
    · exact ⟨(.error fault, after), trace, [], by simp, hx, rfl, rfl⟩

@[simp] theorem makes_get_bind {f : Streams → StageM α} :
    makes (get >>= f) streams trace result after ↔ makes (f streams) streams trace result after := Iff.rfl

@[simp] theorem makes_set_bind {new : Streams} {f : PUnit → StageM α} :
    makes (set new >>= f) streams trace result after ↔ makes (f ⟨⟩) new trace result after := Iff.rfl

@[simp] theorem makes_modify_bind {g : Streams → Streams} {f : PUnit → StageM α} :
    makes (modify g >>= f) streams trace result after ↔ makes (f ⟨⟩) (g streams) trace result after := Iff.rfl

@[simp] theorem makes_modify {g : Streams → Streams} {result : Except Fault PUnit} :
    makes (modify g) streams trace result after ↔ trace = [] ∧ result = .ok ⟨⟩ ∧ after = g streams := by
  show (trace = [] ∧ (result, after) = (.ok ⟨⟩, g streams)) ↔ _
  rw [Prod.mk.injEq]

@[simp] theorem makes_throw_bind {fault : Fault} {f : β → StageM α} :
    makes ((throw fault : StageM β) >>= f) streams trace result after ↔
      trace = [] ∧ result = .error fault ∧ after = streams :=
  makes_throw

theorem makes_call_bind {c : Call} {f : c.Reply → StageM α} :
    makes (call c >>= f) streams trace result after ↔
      ∃ reply rest, trace = ⟨c, reply⟩ :: rest ∧ makes (f reply) streams rest result after := Iff.rfl

theorem makes_attempt_bind {x : StageM β} {f : Except Fault β → StageM α} :
    makes (attempt x >>= f) streams trace result after ↔
      ∃ r middle first rest, trace = first ++ rest ∧ makes x streams first r middle ∧
        makes (f r) middle rest result after := by
  refine (Job.makes_bind (j := attempt x streams)).trans ?_
  constructor
  · rintro ⟨⟨r, middle⟩, first, rest, rfl, hx, hf⟩
    obtain ⟨⟨r', middle'⟩, first', _, rfl, hx', rfl, hsame⟩ := (Job.makes_bind (j := x streams)).1 hx
    obtain ⟨hr, rfl⟩ := Prod.mk.inj hsame
    cases hr
    exact ⟨r', middle, first', rest, by simp, hx', hf⟩
  · rintro ⟨r, middle, first, rest, rfl, hx, hf⟩
    exact ⟨(.ok r, middle), first, rest, rfl,
      (Job.makes_bind (j := x streams)).2 ⟨(r, middle), first, [], by simp, hx, rfl, rfl⟩, hf⟩

end StageM

-- From here on the rules are used.
attribute [irreducible] Job.makes StageM.makes

/-! ## What a trace tells -/

namespace Exchange

/-- The file that a call has opened. -/
def opening? : Exchange → Option Opening
  | ⟨.openFile _ path mode, .ok h⟩ => some ⟨h, path, mode⟩
  | _ => none

/-- The path that a call was to open, and how, whether or not it has. -/
def tried? : Exchange → Option (String × FileSystem.Mode)
  | ⟨.openFile _ path mode, _⟩ => some (path, mode)
  | _ => none

/-- Going to the end of a file was refused. -/
def refusesEnd : Exchange → Bool
  | ⟨.seekEnd _, .error _⟩ => true
  | _ => false

/-- What was given to the console as a diagnostic. -/
def told? : Exchange → Option Bytes
  | ⟨.write .err data, _⟩ => some data
  | _ => none

/-- The files that are open after an exchange. -/
def holds (e : Exchange) (held : List Opening) : List Opening :=
  e.call.holds e.reply held

/-- Something is written to a sink. -/
def WritesTo (sink : Sink) (e : Exchange) : Prop :=
  ∃ data, e.call = .write sink data

end Exchange

/-- The files that are open after a trace. -/
def heldAfter (held : List Opening) (trace : List Exchange) : List Opening :=
  trace.foldl (fun held e => e.holds held) held

/-- The files that were opened in the course of a trace. One that is to be continued but has no end to go
    to is given back at once and does not count. -/
def opened : List Exchange → List Opening
  | [] => []
  | e :: rest =>
    match e.opening? with
    | none => opened rest
    | some o => if rest.head?.any Exchange.refusesEnd then opened rest else o :: opened rest

/-- What was tried to open in the course of a trace. -/
def tried (trace : List Exchange) : List (String × FileSystem.Mode) :=
  trace.filterMap Exchange.tried?

/-- What was told on the console in the course of a trace. -/
def toldOnConsole (trace : List Exchange) : List Bytes :=
  trace.filterMap Exchange.told?

/-- No file is opened under a number that another open file has. -/
def Fresh : List Opening → List Exchange → Prop
  | _, [] => True
  | held, e :: rest => (∀ o ∈ e.opening?, ∀ o' ∈ held, o'.handle ≠ o.handle) ∧ Fresh (e.holds held) rest

section Facts

variable {held : List Opening} {trace rest : List Exchange}

@[simp] theorem heldAfter_nil : heldAfter held [] = held := rfl

@[simp] theorem heldAfter_cons (e : Exchange) : heldAfter held (e :: rest) = heldAfter (e.holds held) rest := rfl

theorem heldAfter_append : heldAfter held (trace ++ rest) = heldAfter (heldAfter held trace) rest :=
  List.foldl_append

theorem tried_append : tried (trace ++ rest) = tried trace ++ tried rest :=
  List.filterMap_append

theorem toldOnConsole_append : toldOnConsole (trace ++ rest) = toldOnConsole trace ++ toldOnConsole rest :=
  List.filterMap_append

/-- As long as numbers are fresh, no file is held open twice. -/
theorem nodup_heldAfter (hfresh : Fresh held trace) (hnodup : (held.map (·.handle)).Nodup) :
    ((heldAfter held trace).map (·.handle)).Nodup := by
  induction trace generalizing held with
  | nil => exact hnodup
  | cons e trace ih =>
    refine ih hfresh.2 ?_
    have hnew := hfresh.1
    obtain ⟨c, reply⟩ := e
    simp only [Exchange.holds]
    unfold Call.holds
    split
    · rename_i base path mode h
      have hnotMem : ∀ o ∈ held, o.handle ≠ h := hnew ⟨h, path, mode⟩ rfl
      simpa [hnodup] using hnotMem
    · exact hnodup.sublist (List.eraseP_sublist.map _)
    · exact hnodup

/-! ### Writing -/

variable {sink : Sink}

theorem writesTo_alone {data : Bytes} (reply : Except Errno Unit) :
    ∀ e ∈ ([⟨.write sink data, reply⟩] : List Exchange), e.WritesTo sink := by
  simp [Exchange.WritesTo]

theorem Exchange.WritesTo.opening?_eq {e : Exchange} (h : e.WritesTo sink) : e.opening? = none := by
  obtain ⟨c, reply⟩ := e
  obtain ⟨data, rfl⟩ := h
  rfl

theorem Exchange.WritesTo.tried?_eq {e : Exchange} (h : e.WritesTo sink) : e.tried? = none := by
  obtain ⟨c, reply⟩ := e
  obtain ⟨data, rfl⟩ := h
  rfl

theorem Exchange.WritesTo.told?_eq {e : Exchange} (h : e.WritesTo sink) (hsink : sink ≠ .err) : e.told? = none := by
  obtain ⟨c, reply⟩ := e
  obtain ⟨data, rfl⟩ := h
  cases sink <;> first | rfl | exact absurd rfl hsink

theorem Exchange.WritesTo.holds_eq {e : Exchange} (h : e.WritesTo sink) (held : List Opening) : e.holds held = held := by
  obtain ⟨c, reply⟩ := e
  obtain ⟨data, rfl⟩ := h
  rfl

theorem Exchange.WritesTo.refusesEnd_eq {e : Exchange} (h : e.WritesTo sink) : e.refusesEnd = false := by
  obtain ⟨c, reply⟩ := e
  obtain ⟨data, rfl⟩ := h
  rfl

/-- Writing opens nothing. -/
theorem opened_append_of_writes (h : ∀ e ∈ rest, e.WritesTo sink) : opened (trace ++ rest) = opened trace := by
  induction trace with
  | nil =>
    induction rest with
    | nil => rfl
    | cons e rest ih =>
      rw [List.forall_mem_cons] at h
      simpa [opened, h.1.opening?_eq] using ih h.2
  | cons e trace ih =>
    -- Whether an opening counts depends on the exchange after it, and writing does not go to an end.
    have hnext : (trace ++ rest).head?.any Exchange.refusesEnd = trace.head?.any Exchange.refusesEnd := by
      cases trace with
      | cons e' trace => rfl
      | nil =>
        cases rest with
        | nil => rfl
        | cons e' rest => exact (h e' List.mem_cons_self).refusesEnd_eq
    simp only [List.cons_append, opened, ih, hnext]

theorem tried_of_writes (h : ∀ e ∈ trace, e.WritesTo sink) : tried trace = [] :=
  List.filterMap_eq_nil_iff.2 fun e he => (h e he).tried?_eq

theorem toldOnConsole_of_writes (h : ∀ e ∈ trace, e.WritesTo sink) (hsink : sink ≠ .err) :
    toldOnConsole trace = [] :=
  List.filterMap_eq_nil_iff.2 fun e he => (h e he).told?_eq hsink

theorem heldAfter_of_writes (h : ∀ e ∈ trace, e.WritesTo sink) : heldAfter held trace = held := by
  induction trace with
  | nil => rfl
  | cons e trace ih =>
    rw [List.forall_mem_cons] at h
    rw [heldAfter_cons, h.1.holds_eq, ih h.2]

end Facts

end Conch
