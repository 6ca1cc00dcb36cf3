import PlZero.Proofs.Exec.Ends
import PlZero.Proofs.Exec.Faults

/-! # The order of evaluation

An expression as a list of instructions for a stack of values: for each of its nodes one, those of
the operands before that of the operator, from left to right. Evaluation runs all of them in this
order. It fails at the first one that cannot go on, for the reason that this one has.
-/

namespace PlZero

/-- What a node of an expression does to a stack of values. -/
inductive Instruction where
  | push (value : Value)
  | load (name : String)
  | negate
  | apply (op : BinaryOp)

namespace Instruction

variable {env : Environment} {stack : List Value} {fault : Fault}

/-- Runs an instruction, if the stack has the operands that it takes. The right operand of an
operator is on top of the left one. -/
def step (env : Environment) : Instruction → List Value → Option (Except Fault (List Value))
  | .push value, stack => some (.ok (value :: stack))
  | .load name, stack => some ((env.lookup name).map (· :: stack))
  | .negate, operand :: stack =>
      some ((operand.truth "!").map fun truth => Value.boolean (!truth) :: stack)
  | .apply op, right :: left :: stack => some ((op.apply left right).map (· :: stack))
  | _, _ => none

/-- Why an instruction cannot go on. -/
inductive Faults (env : Environment) : Instruction → List Value → Fault → Prop where
  | unbound {name stack} : env.get? name = none →
      Faults env (.load name) stack (.undefinedVariable name)
  | operand {value stack} : value.kind ≠ .boolean →
      Faults env .negate (value :: stack) (.typeMismatch "!" [value.kind])
  | operands {op left right stack} : op.Rejects left.kind right.kind →
      Faults env (.apply op) (right :: left :: stack)
        (.typeMismatch op.symbol [left.kind, right.kind])
  | divisor {op left stack} : op ∈ [ArithOp.div, .rem] →
      Faults env (.apply (.arith op)) (.integer 0 :: .integer left :: stack)
        (.divisionByZero op.symbol)
  | result {op} {left right : Int64} {stack} : ¬ (op ∈ [ArithOp.div, .rem] ∧ right = 0) →
      ¬ FitsWord (op.critical left.toInt right.toInt) →
      Faults env (.apply (.arith op)) (.integer right :: .integer left :: stack)
        (.integerOverflow op.symbol)

/-- Runs instructions from the first one on, up to one that cannot go on. -/
def run (env : Environment) : List Instruction → List Value → Option (Except Fault (List Value))
  | [], stack => some (.ok stack)
  | first :: others, stack =>
      match first.step env stack with
      | some (.ok stack) => run env others stack
      | stopped => stopped

theorem faults_apply_iff {op : BinaryOp} {left right : Value} :
    Faults env (.apply op) (right :: left :: stack) fault ↔
      op.apply left right = .error fault := by
  constructor
  · intro hfaults
    cases hfaults with
    | operands hrejects => exact BinaryOp.apply_of_rejects hrejects
    | divisor hdivision =>
        exact map_eq_error_iff.mpr (ArithOp.apply_eq_error_iff.mpr
          (.inl ⟨ArithOp.isDivision_iff.mpr hdivision, rfl, rfl⟩))
    | result hdivision hword =>
        rw [← ArithOp.isDivision_iff] at hdivision
        exact map_eq_error_iff.mpr (ArithOp.apply_eq_error_iff.mpr (.inr ⟨hdivision, hword, rfl⟩))
  · intro happly
    obtain ⟨hrejects, rfl⟩ | ⟨op, one, other, rfl, rfl, rfl, hfault⟩ :=
      BinaryOp.apply_eq_error happly
    · exact .operands hrejects
    · obtain ⟨hdivision, rfl, rfl⟩ | ⟨hdivision, hword, rfl⟩ := ArithOp.apply_eq_error_iff.mp hfault
      · exact .divisor (ArithOp.isDivision_iff.mp hdivision)
      · exact .result (fun hzero => hdivision (hzero.imp_left ArithOp.isDivision_iff.mpr)) hword

/-- An instruction stops for the reason that it has. -/
theorem step_eq_error_iff {instruction : Instruction} :
    instruction.step env stack = some (.error fault) ↔ instruction.Faults env stack fault := by
  cases instruction with
  | push value => exact ⟨nofun, nofun⟩
  | load name =>
      rw [step, Option.some_inj, map_eq_error_iff, Environment.lookup_eq_error_iff]
      constructor
      · rintro ⟨hunbound, rfl⟩
        exact .unbound hunbound
      · intro hfaults
        cases hfaults with
        | unbound hunbound => exact ⟨hunbound, rfl⟩
  | negate =>
      cases stack with
      | nil => exact ⟨nofun, nofun⟩
      | cons operand stack =>
          rw [step, Option.some_inj, map_eq_error_iff, Value.truth_eq_error_iff]
          constructor
          · rintro ⟨hkind, rfl⟩
            exact .operand hkind
          · intro hfaults
            cases hfaults with
            | operand hkind => exact ⟨hkind, rfl⟩
  | apply op =>
      rcases stack with _ | ⟨right, _ | ⟨left, stack⟩⟩
      · exact ⟨nofun, nofun⟩
      · exact ⟨nofun, nofun⟩
      · rw [faults_apply_iff, step, Option.some_inj, map_eq_error_iff]

theorem run_append (first next : List Instruction) (stack : List Value) :
    run env (first ++ next) stack =
      match run env first stack with
      | some (.ok stack) => run env next stack
      | stopped => stopped := by
  induction first generalizing stack with
  | nil => rfl
  | cons instruction first ih =>
      rw [List.cons_append, run, run]
      rcases instruction.step env stack with _ | fault | middle
      · rfl
      · rfl
      · exact ih middle

/-- A run fails at the first instruction that cannot go on. -/
theorem run_eq_error_iff {instructions : List Instruction} :
    run env instructions stack = some (.error fault) ↔
      ∃ before instruction after middle, instructions = before ++ instruction :: after ∧
        run env before stack = some (.ok middle) ∧ instruction.Faults env middle fault := by
  constructor
  · intro hrun
    induction instructions generalizing stack with
    | nil => cases hrun
    | cons first others ih =>
        rw [run] at hrun
        split at hrun
        next next hstep =>
          obtain ⟨before, instruction, after, middle, rfl, hbefore, hfaults⟩ := ih hrun
          refine ⟨first :: before, instruction, after, middle, rfl, ?_, hfaults⟩
          rw [run, hstep]
          exact hbefore
        next => exact ⟨[], first, others, stack, rfl, rfl, step_eq_error_iff.mp hrun⟩
  · rintro ⟨before, instruction, after, middle, rfl, hbefore, hfaults⟩
    rw [run_append, hbefore]
    simp only [run, step_eq_error_iff.mpr hfaults]

end Instruction

namespace Expr

/-- What an expression does once its operands have been evaluated. -/
def instruction : Expr → Instruction
  | .binary _ op _ => .apply op
  | .not _ => .negate
  | .ident name => .load name
  | .int value => .push (.integer value)
  | .bool value => .push (.boolean value)
  | .str text => .push (.text text)

/-- The instructions of the nodes of an expression, operands first, from left to right. -/
def postorder : Expr → List Instruction
  | .binary left op right => left.postorder ++ right.postorder ++ [.apply op]
  | .not operand => operand.postorder ++ [.negate]
  | .ident name => [.load name]
  | .int value => [.push (.integer value)]
  | .bool value => [.push (.boolean value)]
  | .str text => [.push (.text text)]

/-- Every node has its instruction, none is left out. -/
theorem postorder_perm (value : Expr) : value.postorder.Perm (value.parts.map instruction) := by
  induction value with
  | binary left op right ihleft ihright =>
      unfold postorder parts
      rw [List.map_cons, List.map_append]
      exact List.perm_append_comm.trans ((ihleft.append ihright).cons _)
  | not operand ih =>
      unfold postorder parts
      rw [List.map_cons]
      exact List.perm_append_comm.trans (ih.cons _)
  | ident name => exact .refl _
  | int value => exact .refl _
  | bool value => exact .refl _
  | str text => exact .refl _

/-- The instructions of an expression leave its value on top of whatever there was before. -/
theorem run_postorder (env : Environment) (value : Expr) (stack : List Value) :
    Instruction.run env value.postorder stack = some ((value.eval env).map (· :: stack)) := by
  induction value generalizing stack with
  | binary left op right ihleft ihright =>
      unfold postorder eval
      rw [Instruction.run_append, Instruction.run_append, ihleft]
      cases left.eval env with
      | error fault => rfl
      | ok one =>
          simp only [Except.map, ihright]
          cases right.eval env with
          | error fault => rfl
          | ok other =>
              simp only [Instruction.run, Instruction.step]
              change _ = some ((op.apply one other).map (· :: stack))
              cases op.apply one other <;> rfl
  | not operand ih =>
      unfold postorder eval
      rw [Instruction.run_append, ih]
      cases operand.eval env with
      | error fault => rfl
      | ok value => cases value <;> rfl
  | ident name =>
      unfold postorder eval
      rw [Instruction.run, Instruction.step]
      cases env.lookup name <;> rfl
  | int value => rfl
  | bool value => rfl
  | str text => rfl

/-- A statement whose expression has no value stops with the fault, and does nothing else. -/
theorem ends_of_eval_eq_error {Out : Type} [Output Out] {state : State Out} {stmt : Stmt}
    {fault : Fault} (heval : stmt.subject.eval state.env = .error fault) :
    Block.Ends [stmt] state (.error fault, state) := by
  cases stmt with
  | assign name value =>
      have hvalue : value.eval state.env = .error fault := heval
      refine (Block.Ends.cons_iff_of_error fun budget => ?_).mpr rfl
      rw [Stmt.exec, hvalue]
  | print value =>
      have hvalue : value.eval state.env = .error fault := heval
      refine (Block.Ends.cons_iff_of_error fun budget => ?_).mpr rfl
      rw [Stmt.exec, hvalue]
  | branch condition yes no =>
      have htest : condition.test "if" state.env = .error fault :=
        bind_eq_error_iff.mpr (.inl heval)
      refine (Block.Ends.cons_iff_of_error fun budget => ?_).mpr rfl
      rw [Stmt.exec, htest]
  | loop condition body =>
      exact (Block.Ends.loop_iff_of_error (bind_eq_error_iff.mpr (.inl heval))).mpr rfl

/-- An expression as a condition that decides nothing leaves everything as it is. -/
theorem exists_ends_branch {Out : Type} [Output Out] (state : State Out) (condition : Expr) :
    ∃ result, Block.Ends [.branch condition [] []] state (result, state) := by
  cases htest : condition.test "if" state.env with
  | error fault =>
      refine ⟨.error fault, (Block.Ends.cons_iff_of_error fun budget => ?_).mpr rfl⟩
      rw [Stmt.exec, htest]
  | ok truth =>
      have hnothing : Block.Ends ([] ++ []) state (.ok (), state) := Block.Ends.nil_iff.mpr rfl
      cases truth with
      | true => exact ⟨.ok (), (Block.Ends.branch_iff_of_true htest).mpr hnothing⟩
      | false => exact ⟨.ok (), (Block.Ends.branch_iff_of_false htest).mpr hnothing⟩

/-- Evaluation runs the instructions of all nodes, operands first and from left to right, on an
empty stack. There is a value exactly if none of them fails, and it is what is left on the stack.
There is a fault exactly if it is that of the first instruction that cannot go on. Neither the
variables nor the sink are changed. -/
theorem eval_in_postorder (env : Environment) (value : Expr) :
    (∀ result, value.eval env = .ok result ↔
      Instruction.run env value.postorder [] = some (.ok [result])) ∧
    (∀ fault, value.eval env = .error fault ↔
      ∃ before instruction after stack, value.postorder = before ++ instruction :: after ∧
        Instruction.run env before [] = some (.ok stack) ∧
        instruction.Faults env stack fault) ∧
    value.postorder.Perm (value.parts.map instruction) ∧
    ∀ (Out : Type) [Output Out] (sink : Out),
      (∀ fault stmt, value.eval env = .error fault → Stmt.subject stmt = value →
        Block.Ends [stmt] (State.mk env sink) (.error fault, State.mk env sink)) ∧
      ∃ result,
        Block.Ends [.branch value [] []] (State.mk env sink) (result, State.mk env sink) := by
  refine ⟨fun result => ?_, fun fault => ?_, value.postorder_perm, fun Out _ sink => ⟨?_, ?_⟩⟩
  · rw [run_postorder, Option.some_inj, map_eq_ok_iff]
    simp
  · rw [← Instruction.run_eq_error_iff, run_postorder, Option.some_inj, map_eq_error_iff]
  · intro fault stmt heval hstmt
    subst hstmt
    exact ends_of_eval_eq_error heval
  · exact exists_ends_branch (State.mk env sink) value

/-- The comparison on the left fails before the variable on the right is looked up. -/
theorem eval_in_postorder_left_first :
    let value : Expr := .binary (.binary (.int 1) (.compare .lt) (.str "a")) (.compare .eq)
      (.binary (.ident "x") (.arith .div) (.int 0))
    value.eval .empty = .error (.typeMismatch "<" [.integer, .text]) ∧
      (∃ before instruction after stack, value.postorder = before ++ instruction :: after ∧
        Instruction.run .empty before [] = some (.ok stack) ∧
        instruction.Faults .empty stack (.typeMismatch "<" [.integer, .text])) ∧
      Block.Ends [.print value] (State.mk .empty Sink.unlimited)
        (.error (.typeMismatch "<" [.integer, .text]), State.mk .empty Sink.unlimited) := by
  intro value
  have heval : value.eval .empty = .error (.typeMismatch "<" [.integer, .text]) := rfl
  exact ⟨heval, ((eval_in_postorder .empty value).2.1 _).mp heval,
    ((eval_in_postorder .empty value).2.2.2 Sink Sink.unlimited).1 _ _ heval rfl⟩

end Expr

end PlZero
