-- SUMMARY: Commands and lines that a session takes in turn, and the directory that they leave it in.
import Conch.Proofs.Interpreter.Boundary
import Conch.Proofs.Session.Paths

/-!
# Turns of a session

A session takes commands or lines one after the other, each in the context and the
world that the one before has left. The stages of a pipeline are at work in any
order, so what a command can come to is a relation, and running it is one instance.

Only a `cd` that is a command of its own moves a session. All three of its ways to
name a directory lead to a path in normal form if the directory and the home were,
so the directory of a session stays in normal form for good.
-/

namespace Conch

namespace Interpreter

variable {programs : Programs} {ctx after : Context} {w w' : World} {outcome : Outcome}

/-! ## One turn -/

/-- What a command can come to: its outcome, and the context and the world after it. -/
inductive Executes (programs : Programs) (ctx : Context) (w : World) :
    Command → Outcome → Context → World → Prop
  | stage (s : Stage) :
    Executes programs ctx w (.stage s) ((s.run programs ctx).run w).1.1 ((s.run programs ctx).run w).1.2
      ((s.run programs ctx).run w).2
  | pipeline {p : Pipeline} {net : Network} (hnet : net.Reachable programs ctx p w) :
    Executes programs ctx w (.pipeline p) net.outcome ctx (net.owned.foldl World.close net.world)

/-- What a line can come to: its outcome, and the context and the world after it. -/
inductive RunsLine (programs : Programs) (ctx : Context) (w : World) (line : String) :
    Outcome → Context → World → Prop
  | unreadable {e : CommandError} (h : parseTrimmed line = .error e) :
    RunsLine programs ctx w line (.status syntaxStatus) ctx (complain s!"{programName}: {e.message}" w)
  | command {c : Command} {outcome : Outcome} {after : Context} {w' : World} (h : parseTrimmed line = .ok c)
      (hruns : Executes programs ctx w c outcome after w') : RunsLine programs ctx w line outcome after w'

/-- Executing a command is one of the ways in which it can go. -/
theorem execute_executes (programs : Programs) (ctx : Context) (c : Command) (w : World) :
    Executes programs ctx w c (execute programs ctx c w).1.1 (execute programs ctx c w).1.2
      (execute programs ctx c w).2 := by
  cases c with
  | stage s => exact .stage s
  | pipeline p => exact .pipeline (.advance _ _ _ .ofPipeline)

/-- Running a line is one of the ways in which it can go. -/
theorem runLine_runs (programs : Programs) (ctx : Context) (line : String) (w : World) :
    RunsLine programs ctx w line (runLine programs ctx line w).1.1 (runLine programs ctx line w).1.2
      (runLine programs ctx line w).2 := by
  cases h : parseTrimmed line with
  | error e =>
    simp only [runLine, h]
    exact .unreadable h
  | ok c =>
    simp only [runLine, h]
    exact .command h (execute_executes programs ctx c w)

/-- A command leaves the session where it is, unless it is a `cd` on its own that succeeds. -/
theorem Executes.context {c : Command} (h : Executes programs ctx w c outcome after w') :
    after = ctx ∨ ∃ s, c = .stage s ∧ s.Moved ctx outcome after := by
  cases h with
  | stage s => exact (s.context_after_run programs ctx w).imp id fun hmoved => ⟨s, rfl, hmoved⟩
  | pipeline hnet => exact .inl rfl

/-! ## Turn after turn -/

/-- Turns taken one after the other, each where the one before has led to. -/
inductive InTurn {α : Type} (R : Context → World → α → Outcome → Context → World → Prop) :
    Context → World → List α → Context → World → Prop
  | nil (ctx : Context) (w : World) : InTurn R ctx w [] ctx w
  | cons {ctx middle after : Context} {w w₁ w' : World} {a : α} {rest : List α} {outcome : Outcome}
      (hfirst : R ctx w a outcome middle w₁) (hrest : InTurn R middle w₁ rest after w') :
    InTurn R ctx w (a :: rest) after w'

/-- What every turn keeps is kept by all of them. -/
theorem InTurn.keeps {α : Type} {R : Context → World → α → Outcome → Context → World → Prop} {P : Context → Prop}
    (hstep : ∀ ctx w a outcome after w', R ctx w a outcome after w' → P ctx → P after) {turns : List α}
    (h : InTurn R ctx w turns after w') (hctx : P ctx) : P after := by
  induction h with
  | nil ctx w => exact hctx
  | cons hfirst hrest ih => exact ih (hstep _ _ _ _ _ _ hfirst hctx)

/-! ## The directory of a session -/

/-- One command keeps the directory and the home in normal form. -/
theorem Executes.keeps_normal {c : Command} (h : Executes programs ctx w c outcome after w') (hctx : ctx.Normal) :
    after.Normal := by
  rcases h.context with rfl | ⟨s, -, hmoved⟩
  · exact hctx
  · obtain ⟨target, -, rfl⟩ := hmoved.context
    exact Context.moveTo_normal hctx target

open Path

/-- What a directory and a home are given as becomes normal, and from then on the directory is an absolute path
    in normal form, whatever is executed. So is every name that is resolved, and a resolved name means the
    same in any session. -/
theorem directory_stays_normal :
    (∀ (o : StartOptions) (w : World) (ctx : Context), ((Context.create o).run w).1 = .ok ctx →
      Start.given? o.directory ≠ none → Start.given? o.home ≠ none → ctx.Normal) ∧
    ∀ (programs : Programs) (ctx after : Context) (w w' : World) (commands : List Command),
      ctx.Normal → InTurn (Executes programs) ctx w commands after w' →
        after.directory.Normal ∧ NormalText after.directory.toString ∧
        ∀ (name : String) (path : Path), after.resolve (ofString name) = path →
          path.Normal ∧ NormalText path.toString ∧
          ∀ other : Context, other.resolve path = path ∧ other.resolve (ofString path.toString) = path := by
  constructor
  · intro o w ctx hcreate hdirectory home
    have hgiven := Start.create_run hcreate
    exact ⟨hgiven.1 hdirectory, hgiven.2 home⟩
  intro programs ctx after w w' commands hctx hturns
  have hafter : after.Normal := hturns.keeps (fun _ _ _ _ _ _ => Executes.keeps_normal) hctx
  refine ⟨hafter.directory, hafter.directory.text, ?_⟩
  intro name path hpath
  have hnormal : path.Normal := by
    rw [← hpath]
    exact Context.resolve_normal hafter.directory (ofString_pieces name)
  refine ⟨hnormal, hnormal.text, fun other => ⟨other.resolve_of_normal hnormal, ?_⟩⟩
  rw [ofString_toString hnormal]
  exact other.resolve_of_normal hnormal

/-- A world with the directory `/a/b` and nothing else. -/
def nestedWorld : World :=
  { files := ⟨#[.dir 0 [("a", 1)], .dir 0 [("b", 2)], .dir 1 []]⟩ }

/-- A session in `//a`. -/
def doubleContext : Context := ⟨⟨.doubleRoot, ["a"]⟩, .rootPath, []⟩

/-- Many dots on the way, with a `cd` that fails after them. -/
theorem directory_stays_normal_through_dots :
    ∃ after w', InTurn (Executes fun _ => none) doubleContext nestedWorld
        [.stage ⟨"cd", ["../..//a/./b/../b"], none, by decide⟩, .stage ⟨"cd", ["nosuch"], none, by decide⟩] after w' ∧
      after.directory = ⟨.doubleRoot, ["a", "b"]⟩ ∧ after.directory.Normal ∧
      NormalText after.directory.toString ∧ (after.resolve (ofString "../../../c/")).Normal := by
  have hnormal : doubleContext.Normal := by
    refine ⟨⟨rfl, ?_⟩, ⟨rfl, by simp [doubleContext, rootPath]⟩⟩
    intro part hpart
    obtain rfl := List.mem_singleton.1 hpart
    exact ⟨⟨rfl, by decide⟩, by decide⟩
  have hturns := InTurn.cons (execute_executes (fun _ => none) doubleContext
    (.stage ⟨"cd", ["../..//a/./b/../b"], none, by decide⟩) nestedWorld)
    (.cons (execute_executes (fun _ => none) _ (.stage ⟨"cd", ["nosuch"], none, by decide⟩) _) (.nil _ _))
  obtain ⟨hdirectory, htext, hresolve⟩ := directory_stays_normal.2 _ _ _ _ _ _ hnormal hturns
  refine ⟨_, _, hturns, by decide +kernel, hdirectory, htext, (hresolve _ _ rfl).1⟩

end Interpreter

end Conch
