import Mathlib.Logic.Relation
import PlZero.Proofs.Exec.Faults
import PlZero.Proofs.Exec.Frame
import PlZero.Proofs.Exec.Sinks

/-! # What a fault says of a run

A fault names something that occurs in the block that was run, and a reason why the run could not
go on there: a variable that was never bound, kinds of values that a construct does not take, or a
sink that did not take a whole line. The reason is still to be seen in the state that is left.
-/

namespace PlZero

/-- A block has a construct that asks for a truth value. -/
def Block.Asks (block : Block) (context : String) : Prop :=
  (context = "if" ∧ ∃ condition yes no, .branch condition yes no ∈ block.parts) ∨
    (context = "while" ∧ ∃ condition body, .loop condition body ∈ block.parts) ∨
    (context = "!" ∧ ∃ operand, .not operand ∈ block.exprs)

namespace Machine

variable {Out : Type} [Output Out] {block : Block} {state final : State Out} {fault : Fault}
  {name : String}

namespace Config

variable {before after reached : Config Out}

/-- A variable that is bound stays bound. -/
theorem get?_ne_none_of_steps (hsteps : Steps before after)
    (hbound : before.state.env.get? name ≠ none) : after.state.env.get? name ≠ none := by
  induction hsteps with
  | refl => exact hbound
  | tail _ hstep ih =>
      obtain ⟨work, pending, state, rfl, rfl⟩ := exists_work_of_step? hstep
      obtain hsame | ⟨target, value, result, -, -, hassigned⟩ := work.env_step pending state
      · rw [hsame]
        exact ih
      · rw [hassigned, Environment.get?_assign]
        split
        next => exact Option.some_ne_none _
        next => exact ih

theorem within_of_steps (hsteps : Steps (start block state) reached) : reached.Within block := by
  induction hsteps with
  | refl => exact within_start block state
  | tail _ hstep ih => exact ih.step hstep

/-- The machine passes through everything it can reach before it ends. -/
theorem steps_of_ended (hreached : Steps before reached) (hended : reached.step? = none)
    (hsteps : Steps before after) : Steps after reached := by
  have hunique : Relator.RightUnique fun before after : Config Out => before.step? = some after :=
    fun _ _ _ hone hother => Option.some_inj.mp (hone.symm.trans hother)
  rcases Relation.ReflTransGen.total_of_right_unique hunique hsteps hreached with hafter | hbefore
  · exact hafter
  · rcases Relation.ReflTransGen.cases_head hbefore with rfl | ⟨next, hnext, -⟩
    · exact .refl
    · rw [hended] at hnext
      cases hnext

end Config

/-- What a fault says of a run that began in one state and ended in another one. -/
def Justifies (block : Block) (start final : State Out) : Fault → Prop
  | .undefinedVariable name => block.Reads name ∧ final.env.get? name = none ∧
      ∀ config, Config.Steps (.start block start) config → config.state.env.get? name = none
  | .typeMismatch context found =>
      (block.Asks context ∧ ∃ kind, kind ≠ .boolean ∧ found = [kind]) ∨
        ∃ left op right one other, .binary left op right ∈ block.exprs ∧ context = op.symbol ∧
          found = [one, other] ∧ op.Rejects one other
  | .divisionByZero operator =>
      ∃ left op right, .binary left (.arith op) right ∈ block.exprs ∧
        op ∈ [ArithOp.div, .rem] ∧ operator = op.symbol
  | .integerOverflow operator =>
      ∃ left op right, .binary left (.arith op) right ∈ block.exprs ∧ operator = op.symbol
  | .output reason =>
      ∃ value pending before shown, .print value ∈ block.parts ∧
        Config.Steps (.start block start) (.running (.print value :: pending) before) ∧
        value.eval before.env = .ok shown ∧
        before.print shown = (.error (.output reason), final)

/-- An expression of the block that raises a fault in the end justifies that fault. -/
theorem justifies_of_raises {part : Expr}
    (hreached : Config.Steps (.start block state) (.stopped fault final))
    (hpart : part ∈ block.exprs) (hraises : part.Raises final.env fault) :
    Justifies block state final fault := by
  cases hraises with
  | @ident name hlookup =>
      obtain ⟨hunbound, rfl⟩ := Environment.lookup_eq_error_iff.mp hlookup
      -- What was bound before the end would be bound there.
      refine ⟨hpart, hunbound, fun config hsteps => Decidable.byContradiction fun hbound => ?_⟩
      exact Config.get?_ne_none_of_steps (Config.steps_of_ended hreached rfl hsteps) hbound
        hunbound
  | @not operand value hoperand htruth =>
      obtain ⟨hkind, rfl⟩ := Value.truth_eq_error_iff.mp htruth
      exact .inl ⟨.inr (.inr ⟨rfl, operand, hpart⟩), value.kind, hkind, rfl⟩
  | @binary left op right one other hleft hright happly =>
      obtain ⟨hrejects, rfl⟩ | ⟨arith, x, y, rfl, rfl, rfl, hfault⟩ :=
        BinaryOp.apply_eq_error happly
      · exact .inr ⟨left, op, right, one.kind, other.kind, hpart, rfl, rfl, hrejects⟩
      · obtain ⟨hdivision, -, rfl⟩ | ⟨-, -, rfl⟩ := ArithOp.apply_eq_error_iff.mp hfault
        · exact ⟨left, arith, right, hpart, ArithOp.isDivision_iff.mp hdivision, rfl⟩
        · exact ⟨left, arith, right, hpart, rfl⟩

/-- A construct of the block that meets a value of another kind justifies its fault. -/
theorem justifies_of_truth {context : String} {value : Value} (hasks : block.Asks context)
    (htruth : value.truth context = .error fault) : Justifies block state final fault := by
  obtain ⟨hkind, rfl⟩ := Value.truth_eq_error_iff.mp htruth
  exact .inl ⟨hasks, value.kind, hkind, rfl⟩

theorem print_of_resume_eq_stopped {shown : Value} {pending : List Work}
    (hresume : Config.resume pending (state.print shown) = .stopped fault final) :
    ∃ reason, fault = .output reason ∧ state.print shown = (.error fault, final) := by
  unfold State.print at hresume ⊢
  cases hprint : Output.print state.sink shown with
  | mk result sink =>
      cases result with
      | ok value =>
          rw [hprint] at hresume
          cases hresume
      | error reason =>
          rw [hprint] at hresume
          cases hresume
          exact ⟨reason, rfl, rfl⟩

/-- Work stops the machine because its expression has no value or none that it takes, or else
because a sink failed. -/
theorem Work.step_eq_stopped {work : Work} {pending : List Work}
    (hstep : work.step pending state = .stopped fault final) :
    (final = state ∧ (work.toStmt.subject.eval state.env = .error fault ∨
        ∃ (context : String) (value : Value),
          (∀ block : Block, work.toStmt ∈ block.parts → block.Asks context) ∧
          value.truth context = .error fault)) ∨
      ∃ value shown reason, work = .print value ∧ value.eval state.env = .ok shown ∧
        fault = .output reason ∧ state.print shown = (.error fault, final) := by
  cases work with
  | assign name value =>
      rw [step] at hstep
      split at hstep
      next => cases hstep
      next hvalue =>
        cases hstep
        exact .inl ⟨rfl, .inl hvalue⟩
  | print value =>
      rw [step] at hstep
      split at hstep
      next shown hvalue =>
        obtain ⟨reason, rfl, hprint⟩ := print_of_resume_eq_stopped hstep
        exact .inr ⟨value, shown, reason, rfl, hvalue, rfl, hprint⟩
      next hvalue =>
        cases hstep
        exact .inl ⟨rfl, .inl hvalue⟩
  | branch condition yes no =>
      rw [step] at hstep
      split at hstep
      next => cases hstep
      next => cases hstep
      next htest =>
        cases hstep
        refine .inl ⟨rfl, (bind_eq_error_iff.mp htest).imp_right ?_⟩
        rintro ⟨value, -, htruth⟩
        exact ⟨"if", value, fun block hpart => .inl ⟨rfl, condition, yes, no, hpart⟩, htruth⟩
  | loop phase condition body =>
      cases phase with
      | runBody => cases hstep
      | checkCondition =>
          rw [step] at hstep
          split at hstep
          next => cases hstep
          next => cases hstep
          next htest =>
            cases hstep
            refine .inl ⟨rfl, (bind_eq_error_iff.mp htest).imp_right ?_⟩
            rintro ⟨value, -, htruth⟩
            exact ⟨"while", value, fun block hpart => .inr (.inl ⟨rfl, condition, body, hpart⟩),
              htruth⟩

/-- The fault that stops the machine is justified by the block that it was started on. -/
theorem justifies_of_step {work : Work} {pending : List Work} {before : State Out}
    (hsteps : Config.Steps (.start block state) (.running (work :: pending) before))
    (hwithin : work.toStmt ∈ block.parts)
    (hstep : work.step pending before = .stopped fault final) :
    Justifies block state final fault := by
  have hreached : Config.Steps (.start block state) (.stopped fault final) :=
    hsteps.tail (congrArg some hstep)
  obtain ⟨rfl, hvalue | ⟨context, value, hasks, htruth⟩⟩ |
    ⟨value, shown, reason, rfl, hvalue, rfl, hprint⟩ := Work.step_eq_stopped hstep
  · obtain ⟨part, hpart, hraises⟩ := Expr.exists_raises_of_eval hvalue
    exact justifies_of_raises hreached (Block.mem_exprs hwithin hpart) hraises
  · exact justifies_of_truth (hasks block hwithin) htruth
  · exact ⟨value, pending, before, shown, hwithin, hsteps, hvalue, hprint⟩

theorem justifies_of_ends (hending : block.Ends state (.error fault, final)) :
    Justifies block state final fault := by
  obtain ⟨reached, hsteps, hreached⟩ := (Config.ends_iff_exists_steps _ _ _).mp hending
  have hstopped : reached = .stopped fault final := by
    rcases reached with ⟨_ | ⟨work, pending⟩, last⟩ | ⟨reason, last⟩
    · cases hreached
    · cases hreached
    · cases hreached
      rfl
  subst hstopped
  obtain hstart | ⟨before, hbefore, hlast⟩ := Relation.ReflTransGen.cases_tail hsteps
  · cases hstart
  · obtain ⟨work, pending, middle, rfl, hstep⟩ := Config.exists_work_of_step? hlast
    exact justifies_of_step hbefore (Config.within_of_steps hbefore work List.mem_cons_self)
      hstep.symm

/-- Every fault of a run is justified by the block that was run and by the state that is left. If
it comes from the sink, then this one was given the line of a value by a print of the block, and
refused a part of it. -/
theorem fault_justified (block : Block) :
    (∀ (Out : Type) [Output Out] (state final : State Out) (fault : Fault),
      block.Ends state (.error fault, final) → Justifies block state final fault) ∧
    ∀ (state final : State) (reason : String),
      block.Ends state (.error (.output reason), final) →
        ∃ value pending before shown, .print value ∈ block.parts ∧
          Config.Steps (.start block state) (.running (.print value :: pending) before) ∧
          value.eval before.env = .ok shown ∧ before.sink.Refuses shown.render final.sink := by
  refine ⟨fun Out _ state final fault => justifies_of_ends, fun state final reason hending => ?_⟩
  obtain ⟨value, pending, before, shown, hvalue, hsteps, heval, hprint⟩ :=
    justifies_of_ends hending
  exact ⟨value, pending, before, shown, hvalue, hsteps, heval, State.refuses_of_print hprint⟩

/-- A number is no condition of a loop, and a sink of three bytes has no room for a second line. -/
theorem fault_justified_of_kind_and_room :
    let counting : Block := [.assign "n" (.int 7), .loop (.ident "n") []]
    let kept : State := ⟨Environment.empty.assign "n" (.integer 7), Sink.unlimited⟩
    let printing : Block := [.print (.str "ab"), .print (.bool true)]
    let full : State := ⟨.empty, Sink.limited 3 .stalled⟩
    (counting.Ends ⟨.empty, Sink.unlimited⟩
        (.error (.typeMismatch "while" [.integer]), kept) ∧
      Justifies counting ⟨.empty, Sink.unlimited⟩ kept (.typeMismatch "while" [.integer])) ∧
    printing.Ends full (.error (.output "failed to write whole buffer"),
        ⟨.empty, (Sink.limited 3 .stalled).accept "ab\n".toUTF8⟩) ∧
      ∃ value pending before shown, .print value ∈ printing.parts ∧
        Config.Steps (.start printing full) (.running (.print value :: pending) before) ∧
        value.eval before.env = .ok shown ∧
        before.sink.Refuses shown.render ((Sink.limited 3 .stalled).accept "ab\n".toUTF8) := by
  intro counting kept printing full
  have hkind : counting.Ends ⟨.empty, Sink.unlimited⟩
      (.error (.typeMismatch "while" [.integer]), kept) := ⟨1, rfl⟩
  have hroom : printing.Ends full (.error (.output "failed to write whole buffer"),
      ⟨.empty, (Sink.limited 3 .stalled).accept "ab\n".toUTF8⟩) := ⟨0, rfl⟩
  exact ⟨⟨hkind, (fault_justified counting).1 _ _ _ _ hkind⟩, hroom,
    (fault_justified printing).2 _ _ _ hroom⟩

end Machine

end PlZero
