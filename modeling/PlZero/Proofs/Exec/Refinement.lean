import PlZero.Proofs.Exec.Ends
import PlZero.Proofs.Exec.Machine

/-! # Execution and the machine

A block that ends takes the machine to the same end, whatever else is pending: this goes along the
block, and for a loop along its budget. Conversely no step changes how the pending work would end
if it were executed, so an end that the machine reaches is the end of the block.
-/

namespace PlZero.Machine

variable {Out : Type} [Output Out] {budget : Nat} {state : State Out} {ending : Ending Out}
  {pending : List Work}

namespace Config

theorem steps_of_repeatWhile {condition : Expr} {body : Block}
    {run : State Out → Option (Ending Out)}
    (hbody : ∀ {state ending} (pending : List Work), run state = some ending →
      Steps (.running (Work.ofBlock body ++ pending) state) (resume pending ending))
    (hending : repeatWhile (condition.test "while") run budget state = some ending) :
    Steps (.running (.loop .checkCondition condition body :: pending) state)
      (resume pending ending) := by
  induction budget generalizing state with
  | zero => cases hending
  | succ budget ih =>
      rw [repeatWhile_succ] at hending
      split at hending
      next fault htest =>
        obtain rfl := Option.some_inj.mp hending
        refine .single ?_
        rw [step?, Work.step, htest]
        rfl
      next htest =>
        obtain rfl := Option.some_inj.mp hending
        refine .single ?_
        rw [step?, Work.step, htest]
        rfl
      next htest =>
        have hcheck : (running (.loop .checkCondition condition body :: pending) state).step? =
            some (.running (Work.ofBlock body ++ .loop .runBody condition body :: pending)
              state) := by
          rw [step?, Work.step, htest]
        obtain ⟨middle, hfirst, hrest⟩ | ⟨fault, middle, hfirst, rfl⟩ :=
          Ending.andThen_eq_some_iff.mp hending
        · -- The body is done, and its loop is on top of the stack again.
          have hdone : Steps (.running (.loop .runBody condition body :: pending) middle)
              (.running (.loop .checkCondition condition body :: pending) middle) := .single rfl
          exact .head hcheck ((hbody _ hfirst).trans (hdone.trans (ih hrest)))
        · exact .head hcheck (hbody (.loop .runBody condition body :: pending) hfirst)

mutual

theorem steps_of_stmt_exec (stmt : Stmt) {state : State Out} {ending : Ending Out}
    (pending : List Work) (hending : stmt.exec budget state = some ending) :
    Steps (.running (Work.ofStmt stmt :: pending) state) (resume pending ending) := by
  cases stmt with
  | assign name value =>
      refine .single ?_
      rw [step?, Work.ofStmt, Work.step]
      rw [Stmt.exec] at hending
      rcases hvalue : value.eval state.env with fault | result <;> rw [hvalue] at hending
      · obtain rfl := Option.some_inj.mp hending
        rfl
      · obtain rfl := Option.some_inj.mp hending
        rfl
  | print value =>
      refine .single ?_
      rw [step?, Work.ofStmt, Work.step]
      rw [Stmt.exec] at hending
      rcases hvalue : value.eval state.env with fault | shown <;> rw [hvalue] at hending
      · obtain rfl := Option.some_inj.mp hending
        rfl
      · obtain rfl := Option.some_inj.mp hending
        rfl
  | branch condition yes no =>
      rw [Stmt.exec] at hending
      split at hending
      next htest =>
        refine .head ?_ (steps_of_block_exec yes pending hending)
        rw [step?, Work.ofStmt, Work.step, htest]
      next htest =>
        refine .head ?_ (steps_of_block_exec no pending hending)
        rw [step?, Work.ofStmt, Work.step, htest]
      next htest =>
        refine .single ?_
        rw [step?, Work.ofStmt, Work.step, htest, ← Option.some_inj.mp hending]
        rfl
  | loop condition body =>
      rw [Stmt.exec] at hending
      exact steps_of_repeatWhile (fun pending => steps_of_block_exec body pending) hending

/-- A block that ends takes the machine to what is pending behind it, or to its fault. -/
theorem steps_of_block_exec (block : Block) {state : State Out} {ending : Ending Out}
    (pending : List Work) (hending : Block.exec budget block state = some ending) :
    Steps (.running (Work.ofBlock block ++ pending) state) (resume pending ending) := by
  cases block with
  | nil =>
      obtain rfl := Option.some_inj.mp hending
      exact .refl
  | cons first others =>
      rw [Block.exec_cons] at hending
      obtain ⟨middle, hfirst, hrest⟩ | ⟨fault, middle, hfirst, rfl⟩ :=
        Ending.andThen_eq_some_iff.mp hending
      · exact (steps_of_stmt_exec first (Work.ofBlock others ++ pending) hfirst).trans
          (steps_of_block_exec others pending hrest)
      · exact steps_of_stmt_exec first (Work.ofBlock others ++ pending) hfirst

end

end Config

/-- The statement that is still to be executed for some work. -/
def Work.toStmt : Work → Stmt
  | .assign name value => .assign name value
  | .print value => .print value
  | .branch condition yes no => .branch condition yes no
  | .loop _ condition body => .loop condition body

/-- The statements that are still to be executed. -/
def Work.toBlock (pending : List Work) : Block :=
  pending.map toStmt

theorem Work.toStmt_ofStmt (stmt : Stmt) : (ofStmt stmt).toStmt = stmt := by
  cases stmt <;> rfl

@[simp]
theorem Work.toBlock_ofBlock (block : Block) : toBlock (ofBlock block) = block := by
  rw [toBlock, ofBlock, List.map_map]
  exact (List.map_congr_left fun stmt _ => toStmt_ofStmt stmt).trans (List.map_id block)

@[simp]
theorem Work.toBlock_append (first next : List Work) :
    toBlock (first ++ next) = toBlock first ++ toBlock next :=
  List.map_append

namespace Config

/-- How the run ends if what is still pending is executed. -/
def Ends : Config Out → Ending Out → Prop
  | .running pending state, ending => Block.Ends (Work.toBlock pending) state ending
  | .stopped fault state, ending => ending = (.error fault, state)

theorem ends_start_iff {block : Block} :
    Ends (start block state) ending ↔ block.Ends state ending := by
  rw [start, Ends, Work.toBlock_ofBlock]

/-- A step changes nothing about how the pending work ends. -/
theorem ends_step_iff (work : Work) :
    Ends (work.step pending state) ending ↔
      Block.Ends (work.toStmt :: Work.toBlock pending) state ending := by
  cases work with
  | assign name value =>
      rw [Work.step]
      split
      next hvalue =>
        exact (Block.Ends.cons_iff_of_ok fun _ => by rw [Work.toStmt, Stmt.exec, hvalue]).symm
      next hvalue =>
        exact (Block.Ends.cons_iff_of_error fun _ => by rw [Work.toStmt, Stmt.exec, hvalue]).symm
  | print value =>
      rw [Work.step]
      split
      next printed hvalue =>
        have hexec : ∀ budget, (Work.print value).toStmt.exec budget state =
            some (state.print printed) := by
          intro budget
          rw [Work.toStmt, Stmt.exec, hvalue]
        -- The sink may refuse the line, and then the machine stops with what was written of it.
        rcases hprint : state.print printed with ⟨fault | ⟨⟩, middle⟩ <;> rw [hprint] at hexec
        · exact (Block.Ends.cons_iff_of_error hexec).symm
        · exact (Block.Ends.cons_iff_of_ok hexec).symm
      next hvalue =>
        exact (Block.Ends.cons_iff_of_error fun _ => by rw [Work.toStmt, Stmt.exec, hvalue]).symm
  | branch condition yes no =>
      rw [Work.step]
      split
      next htest =>
        rw [Ends, Work.toBlock_append, Work.toBlock_ofBlock]
        exact (Block.Ends.branch_iff_of_true htest).symm
      next htest =>
        rw [Ends, Work.toBlock_append, Work.toBlock_ofBlock]
        exact (Block.Ends.branch_iff_of_false htest).symm
      next htest =>
        exact (Block.Ends.cons_iff_of_error fun _ => by rw [Work.toStmt, Stmt.exec, htest]).symm
  | loop phase condition body =>
      cases phase with
      | checkCondition =>
          rw [Work.step]
          split
          next htest =>
            rw [Ends, Work.toBlock_append, Work.toBlock_ofBlock]
            exact (Block.Ends.loop_iff_of_true htest).symm
          next htest => exact (Block.Ends.loop_iff_of_false htest).symm
          next htest => exact (Block.Ends.loop_iff_of_error htest).symm
      | runBody => exact Iff.rfl

theorem ends_iff_of_steps {config reached : Config Out} (hsteps : Steps config reached) :
    config.Ends ending ↔ reached.Ends ending := by
  induction hsteps with
  | refl => exact Iff.rfl
  | @tail before after _ hstep ih =>
      rcases before with ⟨_ | ⟨work, pending⟩, state⟩ | ⟨fault, state⟩
      · cases hstep
      · obtain rfl := Option.some_inj.mp hstep
        exact ih.trans (ends_step_iff work).symm
      · cases hstep

/-- Where the machine cannot go on, it has ended as the rest of the program would. -/
theorem ends_of_ending? {config : Config Out} (hending : config.ending? = some ending) :
    config.Ends ending := by
  rcases config with ⟨_ | ⟨work, pending⟩, state⟩ | ⟨fault, state⟩
  · exact Block.Ends.nil_iff.mpr (Option.some_inj.mp hending).symm
  · cases hending
  · exact (Option.some_inj.mp hending).symm

/-- A block ends in some way if and only if the machine reaches that end. -/
theorem ends_iff_exists_steps (block : Block) (state : State Out) (ending : Ending Out) :
    block.Ends state ending ↔
      ∃ reached, Steps (start block state) reached ∧ reached.ending? = some ending := by
  constructor
  · rintro ⟨budget, hending⟩
    have hsteps := steps_of_block_exec block [] hending
    rw [List.append_nil] at hsteps
    exact ⟨resume [] ending, hsteps, ending?_resume_nil ending⟩
  · rintro ⟨reached, hsteps, hending⟩
    exact ends_start_iff.mp ((ends_iff_of_steps hsteps).mpr (ends_of_ending? hending))

end Config

/-- Execution refines the statement machine: it ends in a way under some budget exactly if the
machine reaches a terminal configuration of that way, and it has no ending under any budget
exactly if the machine goes on forever. -/
theorem exec_refines (block : Block) (state : State Out) :
    (∀ ending, (∃ budget, Block.exec budget block state = some ending) ↔
      ∃ reached, Config.Steps (.start block state) reached ∧ reached.ending? = some ending) ∧
    ((∀ budget, Block.exec budget block state = none) ↔
      (Config.start block state).StepsForever) := by
  refine ⟨Config.ends_iff_exists_steps block state, ?_⟩
  rw [Config.stepsForever_iff]
  constructor
  · intro hnone reached ending hsteps hending
    obtain ⟨budget, hexec⟩ :=
      (Config.ends_iff_exists_steps block state ending).mpr ⟨reached, hsteps, hending⟩
    rw [hnone budget] at hexec
    cases hexec
  · intro hnever budget
    rcases hexec : Block.exec budget block state with _ | ending
    · rfl
    · obtain ⟨reached, hsteps, hending⟩ :=
        (Config.ends_iff_exists_steps block state ending).mp ⟨budget, hexec⟩
      exact absurd hending (hnever reached ending hsteps)

end PlZero.Machine
