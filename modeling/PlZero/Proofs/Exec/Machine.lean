import Mathlib.Logic.Relation
import PlZero.Exec

/-! # The statement machine

Execution one step at a time. What is still to run stands on a stack, and a loop that is under way
stays on it, below what is left of its body. A step runs an assignment or a print, decides a
branch, or moves the topmost loop from one of its phases to the other. A fault stops the machine
with the state as it is.
-/

namespace PlZero.Machine

variable {Out : Type}

/-- What a loop does next: check its condition, or finish its body. -/
inductive Phase where
  | checkCondition
  | runBody

/-- Pending work: a statement to run, or a loop in one of its phases. -/
inductive Work where
  | assign (name : String) (value : Expr)
  | print (value : Expr)
  | branch (condition : Expr) (yes no : Block)
  | loop (phase : Phase) (condition : Expr) (body : Block)

/-- The work of a statement. A loop begins with its condition. -/
def Work.ofStmt : Stmt → Work
  | .assign name value => .assign name value
  | .print value => .print value
  | .branch condition yes no => .branch condition yes no
  | .loop condition body => .loop .checkCondition condition body

/-- The work of the statements of a block. -/
def Work.ofBlock (block : Block) : List Work :=
  block.map .ofStmt

/-- The machine is running, or a fault has stopped it. -/
inductive Config (Out : Type) where
  | running (pending : List Work) (state : State Out)
  | stopped (fault : Fault) (state : State Out)

namespace Config

/-- The machine before it runs a block. -/
def start (block : Block) (state : State Out) : Config Out :=
  .running (Work.ofBlock block) state

/-- Turns to the pending work, unless there was a fault. -/
def resume (pending : List Work) : Ending Out → Config Out
  | (.ok (), state) => .running pending state
  | (.error fault, state) => .stopped fault state

/-- How a run ended that cannot go on: with nothing left to do, or with a fault. -/
def ending? : Config Out → Option (Ending Out)
  | .running [] state => some (.ok (), state)
  | .running (_ :: _) _ => none
  | .stopped fault state => some (.error fault, state)

theorem ending?_resume_nil (ending : Ending Out) : (resume [] ending).ending? = some ending := by
  rcases ending with ⟨fault | ⟨⟩, state⟩ <;> rfl

end Config

section Step

variable [Output Out]

/-- One step with some work on top of the stack. -/
def Work.step (pending : List Work) (state : State Out) : Work → Config Out
  | .assign name value =>
      match value.eval state.env with
      | .ok value => .running pending { state with env := state.env.assign name value }
      | .error fault => .stopped fault state
  | .print value =>
      match value.eval state.env with
      | .ok value => Config.resume pending (state.print value)
      | .error fault => .stopped fault state
  | .branch condition yes no =>
      match condition.test "if" state.env with
      | .ok true => .running (ofBlock yes ++ pending) state
      | .ok false => .running (ofBlock no ++ pending) state
      | .error fault => .stopped fault state
  | .loop .checkCondition condition body =>
      match condition.test "while" state.env with
      | .ok true => .running (ofBlock body ++ .loop .runBody condition body :: pending) state
      | .ok false => .running pending state
      | .error fault => .stopped fault state
  | .loop .runBody condition body =>
      .running (.loop .checkCondition condition body :: pending) state

namespace Config

/-- One step of the machine, if it can go on. -/
def step? : Config Out → Option (Config Out)
  | .running [] _ => none
  | .running (work :: pending) state => some (work.step pending state)
  | .stopped _ _ => none

/-- Any number of steps. -/
abbrev Steps : Config Out → Config Out → Prop :=
  Relation.ReflTransGen fun before after => before.step? = some after

/-- Steps that never come to an end. -/
def StepsForever (config : Config Out) : Prop :=
  ∃ run : Nat → Config Out, run 0 = config ∧ ∀ time, (run time).step? = some (run (time + 1))

/-- The machine after a number of steps; where it cannot go on, it stays. -/
def atTime (config : Config Out) : Nat → Config Out
  | 0 => config
  | time + 1 => (config.atTime time).step?.getD (config.atTime time)

/-- The machine ends exactly where it cannot go on. -/
theorem step?_eq_none_iff {config : Config Out} :
    config.step? = none ↔ ∃ ending, config.ending? = some ending := by
  rcases config with ⟨_ | ⟨work, pending⟩, state⟩ | ⟨fault, state⟩
  · simp [step?, ending?]
  · simp [step?, ending?]
  · simp [step?, ending?]

/-- A run that goes on forever passes through everything it can reach. -/
theorem Steps.exists_time {config reached : Config Out} {run : Nat → Config Out}
    (hsteps : Steps config reached) (hstart : run 0 = config)
    (hrun : ∀ time, (run time).step? = some (run (time + 1))) : ∃ time, run time = reached := by
  induction hsteps with
  | refl => exact ⟨0, hstart⟩
  | tail _ hstep ih =>
      obtain ⟨time, rfl⟩ := ih
      exact ⟨time + 1, Option.some_inj.mp ((hrun time).symm.trans hstep)⟩

/-- The machine goes on forever unless it reaches an end. -/
theorem stepsForever_iff {config : Config Out} :
    config.StepsForever ↔
      ∀ reached ending, Steps config reached → reached.ending? ≠ some ending := by
  constructor
  · rintro ⟨run, hstart, hrun⟩ reached ending hsteps hending
    obtain ⟨time, rfl⟩ := hsteps.exists_time hstart hrun
    have hnone := step?_eq_none_iff.mpr ⟨ending, hending⟩
    rw [hrun time] at hnone
    cases hnone
  · intro hnever
    -- Whatever is reached has a next step, so the run can be drawn out step by step.
    have hnext : ∀ reached, Steps config reached →
        reached.step? = some (reached.step?.getD reached) := by
      intro reached hsteps
      rcases hstep : reached.step? with _ | next
      · obtain ⟨ending, hending⟩ := step?_eq_none_iff.mp hstep
        exact absurd hending (hnever reached ending hsteps)
      · rfl
    have hreached : ∀ time, Steps config (config.atTime time) := by
      intro time
      induction time with
      | zero => exact .refl
      | succ time ih => exact ih.tail (hnext _ ih)
    exact ⟨config.atTime, rfl, fun time => hnext _ (hreached time)⟩

end Config

end Step

end PlZero.Machine
