-- SUMMARY: What the interpreter does for the stages of a running pipeline: the calls it makes and the files it has to close.
import Mathlib.Logic.Relation
import Conch.Proofs.Pipeline.Beside
import Conch.Proofs.Stage.Requests

/-!
# Serving the stages of a pipeline

Until a stage is a process its calls are made by the interpreter: while the stage
is started, and as long as it runs if it is a built-in command. Along every run of
a pipeline these calls keep to the contract of the stage, which knows only the
context that the pipeline was given.

A file that is opened on the way is kept track of. It is closed, or what is left of
the stage will own it at its end, or the pipeline could not be started. So in the
end it is closed with the files of all stages.
-/

namespace Conch

namespace Network

variable {programs : Programs} {ctx : Context} {p : Pipeline} {w : World} {net next : Network} {move : Move}

/-! ## Runs that go on -/

/-- A network comes to another by moves in any order. -/
def Onward (programs : Programs) (ctx : Context) : Network → Network → Prop :=
  Relation.ReflTransGen fun net next => ∃ move, net.step programs ctx move = some next

theorem Reachable.onward (hnet : Reachable programs ctx p w net) (honward : Onward programs ctx net next) :
    Reachable programs ctx p w next := by
  induction honward with
  | refl => exact hnet
  | tail hmoves hstep ih =>
    obtain ⟨move, hstep⟩ := hstep
    exact .step move ih hstep

/-- A file was opened on the way to a network. -/
def HasOpened (programs : Programs) (ctx : Context) (p : Pipeline) (w : World) (o : Opening) (net : Network) : Prop :=
  ∃ before move after, Reachable programs ctx p w before ∧ before.step programs ctx move = some after ∧
    before.callOf move = some (.openFile FileSystem.root o.path o.mode) ∧
    (before.world.openPath FileSystem.root o.path o.mode).1 = .ok o.handle ∧ Onward programs ctx after net

theorem HasOpened.step {o : Opening} (h : net.HasOpened programs ctx p w o)
    (hstep : net.step programs ctx move = some next) : next.HasOpened programs ctx p w o := by
  obtain ⟨before, move', after, hbefore, hmove, hcall, hopen, honward⟩ := h
  exact ⟨before, move', after, hbefore, hmove, hcall, hopen, honward.tail ⟨move, hstep⟩⟩

/-! ## Calls -/

/-- A stage is the last one of a pipeline. -/
def isLastAt (p : Pipeline) (i : Nat) : Bool := i + 1 = p.stages.length

/-- The directories that the context's directory leads to while a pipeline runs. -/
def Entered (programs : Programs) (ctx : Context) (p : Pipeline) (w : World) (d : Ino) : Prop :=
  ∃ net, Reachable programs ctx p w net ∧ net.world.enter FileSystem.root ctx.directory.toString = .ok d

/-- A move of the interpreter for a stage: it starts the stage, or the stage is a built-in command. -/
inductive ServesStage (net : Network) (i : Nat) : Move → Prop
  | start (inputSize outputSize : Nat) (hplace : i = net.members.length) :
    ServesStage net i (.start inputSize outputSize)
  | builtin (wish : Nat) {m : Member} (hm : net.members[i]? = some m) (hrole : m.role = .builtin) :
    ServesStage net i (.stage i wish)

/-- The contract of the stage at a place of a pipeline. -/
def termsAt (programs : Programs) (ctx : Context) (p : Pipeline) (w : World) (s : Stage) (i : Nat) : Contract :=
  s.terms (Entered programs ctx p w) ctx (isLastAt p i)

/-- What is left to do for the stages keeps to their contracts. -/
structure Serving (programs : Programs) (ctx : Context) (p : Pipeline) (w : World) (net : Network) : Prop where
  starting : ∀ job, net.starting = some job → ∃ s held, p.stages[net.members.length]? = some s ∧
    (∀ o ∈ held, net.HasOpened programs ctx p w o) ∧
    job.tracked (termsAt programs ctx p w s net.members.length)
      (s.Begun programs (Entered programs ctx p w) ctx (isLastAt p net.members.length)) held
  roles : ∀ (i : Nat) (m : Member), net.members[i]? = some m →
    ∀ s, p.stages[i]? = some s → Builtin.ofName? s.executable ≠ none → m.role = .builtin
  members : ∀ (i : Nat) (m : Member), net.members[i]? = some m → m.role = .builtin →
    ∃ s held, p.stages[i]? = some s ∧
      m.task.rest.tracked (termsAt programs ctx p w s i) s.Concluded held

/-- The replies that the contracts reckon with are the ones that the world gives. -/
theorem reliable_perform (hnet : Reachable programs ctx p w net) (c : Call) :
    c.Reliable (Entered programs ctx p w) ctx (net.world.perform c).1 := by
  cases c with
  | enter base path =>
    simp only [World.perform]
    cases henter : net.world.enter base path with
    | error e => trivial
    | ok d =>
      intro hbase hpath
      exact ⟨net, hnet, hbase ▸ hpath ▸ henter⟩
  | write sink data =>
    cases sink with
    | err => rfl
    | _ => trivial
  | _ => trivial

theorem reliable_of_answers {c : Call} {reply : c.Reply} {after : World} (hnet : Reachable programs ctx p w net)
    (hanswers : net.world.Answers True c reply after) : c.Reliable (Entered programs ctx p w) ctx reply := by
  rcases hanswers with hperform | ⟨hpipe, -⟩
  · rw [show reply = (net.world.perform c).1 from congrArg Prod.fst hperform]
    exact reliable_perform hnet c
  · unfold Call.OnPipe at hpipe
    split at hpipe
    · trivial
    · trivial
    · trivial
    · cases hpipe

/-- A stage that may write some bytes to a pipe may write others. -/
theorem asks_rest {s : Stage} {i : Nat} {data : Bytes} (hc : (termsAt programs ctx p w s i).asks (.write .pipe data))
    (rest : Bytes) : (termsAt programs ctx p w s i).asks (.write .pipe rest) := by
  cases (hc : s.Request (Entered programs ctx p w) ctx (isLastAt p i) (.write .pipe data)) with
  | toPipe hlast hfile => exact Stage.Request.toPipe hlast hfile rest

theorem isEmpty_eq_isLastAt {s : Stage} {waiting : List Stage} {i : Nat} (h : p.stages.drop i = s :: waiting) :
    waiting.isEmpty = isLastAt p i := by
  have hlength := congrArg List.length h
  rw [List.length_drop, List.length_cons] at hlength
  unfold isLastAt
  rw [Bool.eq_iff_iff, List.isEmpty_iff_length_eq_zero, decide_eq_true_eq]
  omega

/-- What is held after a call on the way to a start was opened by it or before. -/
theorem hasOpened_holds {c : Call} {resume : c.Reply → Job Started} {s : Stage} {i inputSize outputSize : Nat}
    {held : List Opening} (hnet : Reachable programs ctx p w net)
    (hstep : net.step programs ctx (.start inputSize outputSize) = some next)
    (hstarting : net.starting = some (.ask c resume)) (hc : (termsAt programs ctx p w s i).asks c)
    (hheld : ∀ o ∈ held, net.HasOpened programs ctx p w o) :
    ∀ o ∈ c.holds (net.world.perform c).1 held, next.HasOpened programs ctx p w o := by
  intro o ho
  cases (hc : s.Request (Entered programs ctx p w) ctx (isLastAt p i) c) with
  | @openFile name mode hname =>
    simp only [World.perform] at ho
    generalize hopen : (net.world.openPath FileSystem.root (ctx.resolve (.ofString name)).toString mode).1 = reply at ho
    cases reply with
    | error cause => exact (hheld o ho).step hstep
    | ok handle =>
      rcases List.mem_cons.1 ho with rfl | ho
      · refine ⟨net, _, next, hnet, hstep, ?_, hopen, .refl⟩
        rw [callOf, hstarting]
        rfl
      · exact (hheld o ho).step hstep
  | close handle => exact (hheld o (List.eraseP_subset ho)).step hstep
  | _ => exact (hheld o ho).step hstep

namespace Serving

theorem start {inputSize outputSize : Nat} (hnet : Reachable programs ctx p w net) (h : net.Serving programs ctx p w)
    (hstep : net.step programs ctx (.start inputSize outputSize) = some next) : next.Serving programs ctx p w := by
  cases startMove_of_start hstep with
  | @called c resume hstarting =>
    obtain ⟨s, held, hs, hheld, htracked⟩ := h.starting _ hstarting
    obtain ⟨hc, hresume⟩ := (Job.tracked_ask c resume).1 htracked
    refine ⟨?_, h.roles, h.members⟩
    rintro job ⟨⟩
    exact ⟨s, _, hs, hasOpened_holds hnet hstep hstarting hc hheld, hresume _ (reliable_perform hnet c)⟩
  | aborted hstarting =>
    refine ⟨?_, h.roles, h.members⟩
    rintro job ⟨⟩
  | @joined m hstarting =>
    obtain ⟨s, held, hs, -, htracked⟩ := h.starting _ hstarting
    have hbegun := (Job.tracked_done _).1 htracked
    refine ⟨?_, net.forall_join m h.roles fun s' hs' hname => ?_, net.forall_join m h.members fun hrole => ?_⟩
    · rintro job ⟨⟩
    · rw [hs] at hs'
      cases hs'
      cases hbegun with
      | builtin hb hrole htask => exact hrole
      | absent status hnot howned => exact absurd hnot hname
      | process hnot hrole htask howned hspawned => exact absurd hnot hname
    · cases hbegun with
      | builtin hb hrole' htask =>
        refine ⟨s, [], hs, ?_⟩
        rw [htask]
        exact builtinJob_tracked hb
      | absent status hnot howned => cases hrole
      | process hnot hrole' htask howned hspawned =>
        rw [hrole'] at hrole
        cases hrole
  | @begun s waiting inputSize outputSize hstarting haborted hwaiting =>
    have hdrop : p.stages.drop net.members.length = s :: waiting := by
      rw [← hwaiting, hnet.invariant.waiting haborted, hstarting]
      rfl
    refine ⟨?_, h.roles, h.members⟩
    rintro job ⟨⟩
    refine ⟨s, [], ?_, by simp, ?_⟩
    · show p.stages[net.members.length]? = some s
      rw [← List.head?_drop, hdrop]
      rfl
    · rw [isEmpty_eq_isLastAt hdrop]
      exact startStage_tracked _ _ _

/-- One move of a built-in stage. -/
theorem proceeded {i : Nat} {m m' : Member} {s : Stage} {held : List Opening} {world : World}
    (hnet : Reachable programs ctx p w net) (hproceeded : m.Proceeded True net.world m' world)
    (h : m.task.rest.tracked (termsAt programs ctx p w s i) s.Concluded held) :
    ∃ held', m'.task.rest.tracked (termsAt programs ctx p w s i) s.Concluded held' := by
  cases hproceeded with
  | ended htask htask' hw =>
    rw [htask] at h
    rw [htask']
    exact ⟨held, h⟩
  | @answered c resume reply htask htask' hanswers =>
    rw [htask] at h
    rw [htask']
    obtain ⟨hc, hresume⟩ := (Job.tracked_ask c resume).1 h
    exact ⟨_, hresume reply (reliable_of_answers hnet hanswers)⟩
  | @writing data rest resume htask htask' hw =>
    rw [htask] at h
    rw [htask']
    obtain ⟨hc, hresume⟩ := (Job.tracked_ask (.write .pipe data) resume).1 h
    exact ⟨held, (Job.tracked_ask (.write .pipe rest) resume).2 ⟨asks_rest hc rest, hresume⟩⟩

/-- Moves that start nothing leave the stage that is being started alone. -/
theorem starting_of_same (h : net.Serving programs ctx p w) (hstep : net.step programs ctx move = some next)
    (hstarting : next.starting = net.starting) (hlength : next.members.length = net.members.length) :
    ∀ job, next.starting = some job → ∃ s held, p.stages[next.members.length]? = some s ∧
      (∀ o ∈ held, next.HasOpened programs ctx p w o) ∧
      job.tracked (termsAt programs ctx p w s next.members.length)
        (s.Begun programs (Entered programs ctx p w) ctx (isLastAt p next.members.length)) held := by
  intro job hjob
  rw [hlength]
  obtain ⟨s, held, hs, hheld, htracked⟩ := h.starting job (hstarting ▸ hjob)
  exact ⟨s, held, hs, fun o ho => (hheld o ho).step hstep, htracked⟩

theorem stage {i wish : Nat} (hnet : Reachable programs ctx p w net) (h : net.Serving programs ctx p w)
    (hstep : net.step programs ctx (.stage i wish) = some next) : next.Serving programs ctx p w := by
  have hstarting := h.starting_of_same hstep
  obtain ⟨m, m', world, hm, hmove, rfl⟩ := stage_cases hstep
  have hproceeded : m.Proceeded True net.world m' world := Member.proceeded_of_step hmove
  have hrole := ((Member.stepped_of_step hmove).moved (hnet.invariant.members i m hm).1).role
  refine ⟨hstarting rfl List.length_set, forall_set h.roles ?_, forall_set h.members fun hbuiltin => ?_⟩
  · rw [hrole]
    exact h.roles i m hm
  · obtain ⟨s, held, hs, htracked⟩ := h.members i m hm (hrole ▸ hbuiltin)
    obtain ⟨held', htracked'⟩ := proceeded hnet hproceeded htracked
    exact ⟨s, held', hs, htracked'⟩

theorem relay {i wish : Nat} (h : net.Serving programs ctx p w)
    (hstep : net.step programs ctx (.relay i wish) = some next) : next.Serving programs ctx p w := by
  have hstarting := h.starting_of_same hstep
  obtain ⟨c, before, after, r, -, hbefore, hafter, -, rfl⟩ := relay_cases hstep
  refine ⟨hstarting rfl (by simp), forall_set (forall_set h.roles ?_) ?_, forall_set (forall_set h.members ?_) ?_⟩
  · exact h.roles i before hbefore
  · exact h.roles (i + 1) after hafter
  · exact h.members i before hbefore
  · exact h.members (i + 1) after hafter

end Serving

/-- Along every run the interpreter keeps to the contracts of the stages. -/
theorem Reachable.serving (h : Reachable programs ctx p w net) : net.Serving programs ctx p w := by
  induction h with
  | ofPipeline =>
    refine ⟨?_, ?_, ?_⟩
    · rintro job ⟨⟩
    · intro i m hm
      cases hm
    · intro i m hm
      cases hm
  | step move hnet hstep ih =>
    cases move with
    | start inputSize outputSize => exact ih.start hnet hstep
    | stage i wish => exact ih.stage hnet hstep
    | relay i wish => exact ih.relay hstep
    | wait =>
      have hstarting := ih.starting_of_same hstep
      obtain ⟨statuses, relaysSeen, fault, isOver, rfl⟩ := wait_cases hstep
      exact ⟨hstarting rfl rfl, ih.roles, ih.members⟩

/-- Every call that the interpreter makes for a stage is one of the stage's requests. -/
theorem Reachable.request (h : Reachable programs ctx p w net) {i : Nat} {c : Call} (hserves : net.ServesStage i move)
    (hcall : net.callOf move = some c) :
    ∃ s, p.stages[i]? = some s ∧ s.Request (Entered programs ctx p w) ctx (isLastAt p i) c := by
  cases hserves with
  | start inputSize outputSize hplace =>
    subst hplace
    obtain ⟨job, hjob, hnext⟩ := Option.bind_eq_some_iff.1 hcall
    obtain ⟨s, held, hs, -, htracked⟩ := h.serving.starting job hjob
    cases job with
    | done started => cases hnext
    | ask c' resume =>
      cases hnext
      exact ⟨s, hs, ((Job.tracked_ask c resume).1 htracked).1⟩
  | @builtin wish m hm hrole =>
    obtain ⟨m', hm', hnext⟩ := Option.bind_eq_some_iff.1 hcall
    rw [hm] at hm'
    cases hm'
    obtain ⟨s, held, hs, htracked⟩ := h.serving.members i m hm hrole
    generalize m.task.rest = job at hnext htracked
    cases job with
    | done e => cases hnext
    | ask c' resume =>
      cases hnext
      exact ⟨s, hs, ((Job.tracked_ask c resume).1 htracked).1⟩

/-! ## Files -/

/-- What is left of a stage will own a file at its end, unless it is closed before. -/
def Keeps (programs : Programs) (ctx : Context) (p : Pipeline) (w : World) (h : Handle) (t : Task) : Prop :=
  t.rest.yields (Call.Reliable (Entered programs ctx p w) ctx) h fun e => h ∈ e.owned

/-- Who sees to it that a file which was opened for a stage gets closed. -/
inductive Custody (programs : Programs) (ctx : Context) (p : Pipeline) (w : World) (h : Handle) (net : Network) : Prop
  | closed (hclosed : net.world.Closed h)
  /-- It was opened for a stage that is being started. -/
  | starting {job : Job Started} (hstarting : net.starting = some job)
      (hyields : job.yields (Call.Reliable (Entered programs ctx p w) ctx) h fun started =>
        ∀ m, started = .ok m → Keeps programs ctx p w h m.task)
  | member {i : Nat} {m : Member} (hm : net.members[i]? = some m) (hkeeps : Keeps programs ctx p w h m.task)
  /-- A stage could not be started, and nobody is told a status. -/
  | aborted (haborted : net.aborted ≠ none)

variable {h : Handle}

/-- A stage that was started keeps what is held for it. -/
theorem keeps_of_begun {s : Stage} {isLast : Bool} {m : Member} {held : List Opening}
    (hbegun : s.Begun programs (Entered programs ctx p w) ctx isLast (.ok m) held) (hheld : ∃ o ∈ held, o.handle = h) :
    Keeps programs ctx p w h m.task := by
  obtain ⟨o, ho, rfl⟩ := hheld
  cases hbegun with
  | builtin hb hrole htask => cases ho
  | absent status hnot howned => exact (Job.yields_done _).2 (howned o ho)
  | process hnot hrole htask howned hspawned =>
    unfold Keeps
    rw [htask]
    -- Whatever the process does, the files that were opened for it are closed after it.
    refine Job.yields_of_wp ((Job.wp_bind _ _ _).2 (Job.wp_of_forall (fun ending => ?_) _))
    rw [Job.wp_pure]
    exact howned o ho

/-- One move of a stage. -/
theorem Keeps.proceeded {m m' : Member} {world : World} {wish : Nat} (hnet : Reachable programs ctx p w net)
    (hmove : m.step wish net.world = some (m', world)) (hbound : h < net.world.opened.size)
    (hkeeps : Keeps programs ctx p w h m.task) : world.Closed h ∨ Keeps programs ctx p w h m'.task := by
  unfold Keeps at hkeeps ⊢
  cases (Member.proceeded_of_step hmove : m.Proceeded True net.world m' world) with
  | ended htask htask' hw =>
    rw [htask] at hkeeps
    rw [htask']
    exact .inr hkeeps
  | @answered c resume reply htask htask' hanswers =>
    rw [htask] at hkeeps
    rw [htask']
    rcases (Job.yields_ask c resume).1 hkeeps with rfl | hresume
    · cases hanswers.performed fun hpipe => hpipe
      exact .inl (World.closed_close hbound)
    · exact .inr (hresume reply (reliable_of_answers hnet hanswers))
  | @writing data rest resume htask htask' hw =>
    rw [htask] at hkeeps
    rw [htask']
    rcases (Job.yields_ask (.write .pipe data) resume).1 hkeeps with hclose | hresume
    · cases hclose
    · exact .inr ((Job.yields_ask (.write .pipe rest) resume).2 (.inr hresume))

/-- A move of a stage does not open a closed file again. -/
theorem closed_of_step {m m' : Member} {world world' : World} {wish : Nat}
    (hmove : m.step wish world = some (m', world')) (hclosed : world.Closed h) : world'.Closed h := by
  unfold Member.step at hmove
  split at hmove
  · cases hmove
  · cases hmove
    exact hclosed
  · split at hmove
    · cases hmove
      exact hclosed
    · split at hmove <;> cases hmove
      exact hclosed
  · split at hmove
    · cases hmove
      exact hclosed
    · split at hmove <;> cases hmove
      all_goals exact hclosed
  · cases hmove
    exact hclosed
  · cases hmove
    exact hclosed.perform _

theorem Custody.start {inputSize outputSize : Nat} (hnet : Reachable programs ctx p w net)
    (hbound : h < net.world.opened.size) (hcustody : net.Custody programs ctx p w h)
    (hstep : net.start programs ctx inputSize outputSize = some next) : next.Custody programs ctx p w h := by
  cases startMove_of_start hstep with
  | @called c resume hstarting =>
    cases hcustody with
    | closed hclosed => exact .closed (hclosed.perform c)
    | starting hstarting' hyields =>
      rw [hstarting] at hstarting'
      cases hstarting'
      rcases (Job.yields_ask c resume).1 hyields with rfl | hresume
      · exact .closed (World.closed_close hbound)
      · exact .starting rfl (hresume _ (reliable_perform hnet c))
    | member hm hkeeps => exact .member hm hkeeps
    | aborted haborted => exact .aborted haborted
  | aborted hstarting => exact .aborted (Option.some_ne_none _)
  | @joined m hstarting =>
    cases hcustody with
    | closed hclosed => exact .closed hclosed
    | starting hstarting' hyields =>
      rw [hstarting] at hstarting'
      cases hstarting'
      exact .member (List.getElem?_concat_length : (net.members ++ [m])[net.members.length]? = some m)
        ((Job.yields_done _).1 hyields m rfl)
    | member hm hkeeps =>
      have hi := (List.getElem?_eq_some_iff.1 hm).1
      exact .member ((List.getElem?_append_left hi).trans hm : (net.members ++ [m])[_]? = some _) hkeeps
    | aborted haborted => exact .aborted haborted
  | begun inputSize outputSize hstarting haborted hwaiting =>
    cases hcustody with
    | closed hclosed => exact .closed hclosed
    | starting hstarting' hyields =>
      rw [hstarting] at hstarting'
      cases hstarting'
    | member hm hkeeps => exact .member hm hkeeps
    | aborted haborted => exact .aborted haborted

theorem Custody.stage {i wish : Nat} (hnet : Reachable programs ctx p w net) (hbound : h < net.world.opened.size)
    (hcustody : net.Custody programs ctx p w h) (hstep : net.step programs ctx (.stage i wish) = some next) :
    next.Custody programs ctx p w h := by
  obtain ⟨m, m', world, hm, hmove, rfl⟩ := stage_cases hstep
  cases hcustody with
  | closed hclosed => exact .closed (closed_of_step hmove hclosed)
  | starting hstarting hyields => exact .starting hstarting hyields
  | @member j n hn hkeeps =>
    by_cases hj : i = j
    · subst hj
      rw [hm] at hn
      cases hn
      rcases Keeps.proceeded hnet hmove hbound hkeeps with hclosed | hkeeps'
      · exact .closed hclosed
      · exact .member (List.getElem?_set_self (List.getElem?_eq_some_iff.1 hm).1) hkeeps'
    · exact .member ((List.getElem?_set_ne hj).trans hn) hkeeps
  | aborted haborted => exact .aborted haborted

/-- One move leaves a file that was opened in good hands. -/
theorem Custody.step (hnet : Reachable programs ctx p w net) (hbound : h < net.world.opened.size)
    (hcustody : net.Custody programs ctx p w h) (hstep : net.step programs ctx move = some next) :
    next.Custody programs ctx p w h := by
  cases move with
  | start inputSize outputSize => exact hcustody.start hnet hbound hstep
  | stage i wish => exact hcustody.stage hnet hbound hstep
  | relay i wish =>
    have hkeepsTask {j : Nat} {n : Member} (hn : net.members[j]? = some n) := relay_keepsTask hstep hn
    obtain ⟨c, before, after, r, -, -, -, -, rfl⟩ := relay_cases hstep
    cases hcustody with
    | closed hclosed => exact .closed hclosed
    | starting hstarting hyields => exact .starting hstarting hyields
    | member hm hkeeps =>
      obtain ⟨n', hn', htask⟩ := hkeepsTask hm
      exact .member hn' (htask ▸ hkeeps)
    | aborted haborted => exact .aborted haborted
  | wait =>
    obtain ⟨statuses, relaysSeen, fault, isOver, rfl⟩ := wait_cases hstep
    cases hcustody with
    | closed hclosed => exact .closed hclosed
    | starting hstarting hyields => exact .starting hstarting hyields
    | member hm hkeeps => exact .member hm hkeeps
    | aborted haborted => exact .aborted haborted

/-- The interpreter opens a file for a stage. -/
structure OpensFor (net : Network) (move : Move) (h : Handle) : Prop where
  serves : ∃ i, net.ServesStage i move
  opens : ∃ base path mode, net.callOf move = some (.openFile base path mode) ∧
    (net.world.openPath base path mode).1 = .ok h

/-- A file that is opened for a stage is in good hands from the start. -/
theorem custody_of_opens (hnet : Reachable programs ctx p w net) (hopens : net.OpensFor move h)
    (hstep : net.step programs ctx move = some next) :
    h < next.world.opened.size ∧ next.Custody programs ctx p w h := by
  obtain ⟨⟨i, hserves⟩, base, path, mode, hcall, hopen⟩ := hopens
  cases hserves with
  | start inputSize outputSize hplace =>
    obtain ⟨job, hjob, hnext⟩ := Option.bind_eq_some_iff.1 hcall
    obtain ⟨s, held, -, -, htracked⟩ := hnet.serving.starting job hjob
    cases job with
    | done started => cases hnext
    | ask c resume =>
      cases hnext
      have hresume := ((Job.tracked_ask _ resume).1 htracked).2 (.ok h) trivial
      cases startMove_of_start hstep with
      | called hstarting =>
        rw [hjob] at hstarting
        cases hstarting
        refine ⟨World.lt_size_of_openPath hopen, .starting rfl ?_⟩
        simp only [World.perform, hopen]
        refine Job.yields_of_tracked ?_ hresume ⟨_, List.mem_cons_self, rfl⟩
        rintro _ held hbegun hheld m rfl
        exact keeps_of_begun hbegun hheld
      | aborted hstarting =>
        rw [hjob] at hstarting
        cases hstarting
      | joined hstarting =>
        rw [hjob] at hstarting
        cases hstarting
      | begun inputSize outputSize hstarting haborted hwaiting =>
        rw [hjob] at hstarting
        cases hstarting
  | @builtin wish m hm hrole =>
    obtain ⟨n, hn, hnext⟩ := Option.bind_eq_some_iff.1 hcall
    rw [hm] at hn
    cases hn
    obtain ⟨s, held, -, htracked⟩ := hnet.serving.members i m hm hrole
    obtain ⟨n, n', world, hn, hmove, rfl⟩ := stage_cases hstep
    rw [hm] at hn
    cases hn
    have hplace := (List.getElem?_eq_some_iff.1 hm).1
    cases (Member.proceeded_of_step hmove : m.Proceeded True net.world n' world) with
    | ended htask htask' hw =>
      rw [htask] at hnext
      cases hnext
    | @answered c resume reply htask htask' hanswers =>
      rw [htask] at hnext htracked
      cases hnext
      have hperform := hanswers.performed fun hpipe => hpipe
      obtain ⟨hreply, hworld⟩ := Prod.mk.inj hperform
      have hok : reply = .ok h := hreply.trans hopen
      subst hok
      have hresume := ((Job.tracked_ask _ resume).1 htracked).2 (.ok h) trivial
      refine ⟨?_, .member (List.getElem?_set_self hplace) ?_⟩
      · rw [hworld]
        exact World.lt_size_of_openPath hopen
      · unfold Keeps
        rw [htask']
        refine Job.yields_of_tracked ?_ hresume ⟨_, List.mem_cons_self, rfl⟩
        rintro e held hconcluded ⟨o, ho, rfl⟩
        exact hconcluded.owned o ho
    | writing htask htask' hw =>
      rw [htask] at hnext
      cases hnext

/-- A file that was opened for a stage stays in good hands. -/
theorem Custody.onward (hnet : Reachable programs ctx p w net) (hbound : h < net.world.opened.size)
    (hcustody : net.Custody programs ctx p w h) (honward : Onward programs ctx net next) :
    h < next.world.opened.size ∧ next.Custody programs ctx p w h := by
  induction honward with
  | refl => exact ⟨hbound, hcustody⟩
  | tail hmoves hstep ih =>
    obtain ⟨move, hstep⟩ := hstep
    exact ⟨(step_later hstep).lt_size ih.1, ih.2.step (hnet.onward hmoves) ih.1 hstep⟩

end Network

end Conch
