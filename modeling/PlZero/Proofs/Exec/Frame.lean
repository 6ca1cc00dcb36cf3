import PlZero.Proofs.Exec.Cut
import PlZero.Proofs.Stmt.Parts

/-! # What a run can change

The machine only ever works on parts of the block it was started on, and only an assignment
touches the variables. So what the assignments of a block keep is kept by its runs, however they
end.
-/

namespace PlZero.Machine

variable {Out : Type} {block : Block} {before after : Config Out}

namespace Config

/-- Everything that is pending is a part of a block. -/
def Within (block : Block) : Config Out → Prop
  | .running pending _ => ∀ work ∈ pending, work.toStmt ∈ block.parts
  | .stopped _ _ => True

theorem within_start (block : Block) (state : State Out) : (start block state).Within block := by
  intro work hwork
  obtain ⟨stmt, hstmt, rfl⟩ := List.mem_map.mp hwork
  rw [Work.toStmt_ofStmt]
  exact Block.mem_parts_of_mem hstmt

theorem within_resume {pending : List Work} (hpending : ∀ state : State Out,
    (running pending state).Within block) (ending : Ending Out) :
    (resume pending ending).Within block := by
  rcases ending with ⟨fault | ⟨⟩, state⟩
  · trivial
  · exact hpending state

/-- The statements of a block inside a part may be put on the stack. -/
theorem within_ofBlock_append {inner : Block} {stmt : Stmt} {pending : List Work}
    (hstmt : stmt ∈ block.parts) (hinner : inner ∈ stmt.blocks)
    (hpending : ∀ work ∈ pending, work.toStmt ∈ block.parts) :
    ∀ work ∈ Work.ofBlock inner ++ pending, work.toStmt ∈ block.parts := by
  intro work hwork
  rcases List.mem_append.mp hwork with hwork | hwork
  · obtain ⟨part, hpart, rfl⟩ := List.mem_map.mp hwork
    rw [Work.toStmt_ofStmt]
    exact Block.mem_parts_of_mem_blocks hstmt hinner hpart
  · exact hpending work hwork

end Config

section Step

variable [Output Out]

theorem Work.within_step {work : Work} {pending : List Work} {state : State Out}
    (hwithin : (Config.running (work :: pending) state).Within block) :
    (work.step pending state).Within block := by
  have hwork : work.toStmt ∈ block.parts := hwithin work List.mem_cons_self
  have hpending : ∀ other ∈ pending, other.toStmt ∈ block.parts :=
    fun other hother => hwithin other (List.mem_cons_of_mem _ hother)
  cases work with
  | assign name value =>
      rw [step]
      split
      · exact hpending
      · trivial
  | print value =>
      rw [step]
      split
      · exact Config.within_resume (fun _ => hpending) _
      · trivial
  | branch condition yes no =>
      rw [step]
      split
      · exact Config.within_ofBlock_append hwork List.mem_cons_self hpending
      · exact Config.within_ofBlock_append hwork (List.mem_cons_of_mem _ List.mem_cons_self)
          hpending
      · trivial
  | loop phase condition body =>
      cases phase with
      | checkCondition =>
          rw [step]
          split
          · exact Config.within_ofBlock_append hwork List.mem_cons_self
              (List.forall_mem_cons.mpr ⟨hwork, hpending⟩)
          · exact hpending
          · trivial
      | runBody => exact List.forall_mem_cons.mpr ⟨hwork, hpending⟩

/-- A step that is no assignment leaves the variables as they are. -/
theorem Work.env_step (work : Work) (pending : List Work) (state : State Out) :
    (work.step pending state).state.env = state.env ∨
      ∃ name value result, work = .assign name value ∧ value.eval state.env = .ok result ∧
        (work.step pending state).state.env = state.env.assign name result := by
  cases work with
  | assign name value =>
      rcases hvalue : value.eval state.env with fault | result
      · refine .inl ?_
        rw [step, hvalue]
        rfl
      · refine .inr ⟨name, value, result, rfl, hvalue, ?_⟩
        rw [step, hvalue]
        rfl
  | print value =>
      refine .inl ?_
      rw [step]
      split
      next shown hvalue =>
        rcases hprint : state.print shown with ⟨fault | ⟨⟩, next⟩
        · exact (congrArg (·.2.env) hprint).symm
        · exact (congrArg (·.2.env) hprint).symm
      next => rfl
  | branch condition yes no =>
      refine .inl ?_
      rw [step]
      split <;> rfl
  | loop phase condition body =>
      refine .inl ?_
      cases phase with
      | checkCondition =>
          rw [step]
          split <;> rfl
      | runBody => rfl

namespace Config

theorem exists_work_of_step? (hstep : before.step? = some after) :
    ∃ work pending state, before = .running (work :: pending) state ∧
      after = work.step pending state := by
  rcases before with ⟨_ | ⟨work, pending⟩, state⟩ | ⟨fault, state⟩
  · cases hstep
  · exact ⟨work, pending, state, rfl, (Option.some_inj.mp hstep).symm⟩
  · cases hstep

theorem Within.step (hwithin : before.Within block) (hstep : before.step? = some after) :
    after.Within block := by
  obtain ⟨work, pending, state, rfl, rfl⟩ := exists_work_of_step? hstep
  exact Work.within_step hwithin

/-- What an assignment of the block keeps of the variables is kept by a step of it. -/
theorem Within.holds_step {Holds : Environment → Prop}
    (hassign : ∀ {name value env result}, .assign name value ∈ block.parts → Holds env →
      value.eval env = .ok result → Holds (env.assign name result))
    (hwithin : before.Within block) (hholds : Holds before.state.env)
    (hstep : before.step? = some after) : Holds after.state.env := by
  obtain ⟨work, pending, state, rfl, rfl⟩ := exists_work_of_step? hstep
  obtain hsame | ⟨name, value, result, rfl, hvalue, hassigned⟩ := work.env_step pending state
  · rw [hsame]
    exact hholds
  · rw [hassigned]
    exact hassign (hwithin _ List.mem_cons_self) hholds hvalue

end Config

end Step

end PlZero.Machine

namespace PlZero

open Machine

/-- What the assignments of a block keep of the variables is kept by every run of the block, also
by one that ends with a fault. -/
theorem Block.Ends.holds {Out : Type} [Output Out] {block : Block} {Holds : Environment → Prop}
    {state : State Out} {ending : Ending Out}
    (hassign : ∀ {name value env result}, .assign name value ∈ block.parts → Holds env →
      value.eval env = .ok result → Holds (env.assign name result))
    (hending : block.Ends state ending) (hholds : Holds state.env) : Holds ending.2.env := by
  obtain ⟨reached, hsteps, hreached⟩ := (Config.ends_iff_exists_steps _ _ _).mp hending
  have hkept : reached.Within block ∧ Holds reached.state.env := by
    clear hreached
    induction hsteps with
    | refl => exact ⟨Config.within_start block state, hholds⟩
    | tail _ hstep ih => exact ⟨ih.1.step hstep, ih.1.holds_step hassign ih.2 hstep⟩
  rw [← Config.state_of_ending? hreached]
  exact hkept.2

end PlZero
