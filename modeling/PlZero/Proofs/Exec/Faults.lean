import PlZero.Proofs.Exec.Evaluation
import PlZero.Proofs.Stmt.Parts

/-! # Where faults arise

An evaluation fails at one expression inside, whose operands all have values. There a variable is
not bound, or an operator does not take the values it is given. What a fault tells is what made
the operator fail.
-/

namespace PlZero

/-! ## Operators -/

/-- Two kinds of values that an operator does not take. -/
def BinaryOp.Rejects (op : BinaryOp) (left right : Kind) : Prop :=
  if op = .compare .eq then left ≠ right else ¬ (left = .integer ∧ right = .integer)

theorem ArithOp.isDivision_iff {op : ArithOp} : op.isDivision ↔ op ∈ [div, rem] := by
  cases op <;> decide

theorem ArithOp.apply_eq_error_iff {op : ArithOp} {left right : Int64} {fault : Fault} :
    op.apply left right = .error fault ↔
      (op.isDivision ∧ right = 0 ∧ fault = .divisionByZero op.symbol) ∨
        (¬ (op.isDivision ∧ right = 0) ∧ ¬ FitsWord (op.critical left.toInt right.toInt) ∧
          fault = .integerOverflow op.symbol) := by
  unfold apply
  simp only [Bool.and_eq_true, decide_eq_true_eq]
  constructor
  · intro happly
    split at happly
    next hzero => exact .inl ⟨hzero.1, hzero.2, (Except.error.inj happly).symm⟩
    next hzero =>
      split at happly
      next => cases happly
      next hfits => exact .inr ⟨hzero, hfits, (Except.error.inj happly).symm⟩
  · rintro (⟨hdivision, hright, rfl⟩ | ⟨hzero, hfits, rfl⟩)
    · exact if_pos ⟨hdivision, hright⟩
    · rw [if_neg hzero, if_neg hfits]

theorem Value.exists_of_kind_eq_integer {value : Value} (hkind : value.kind = .integer) :
    ∃ number, value = .integer number := by
  cases value with
  | integer number => exact ⟨number, rfl⟩
  | boolean value => cases hkind
  | text value => cases hkind

theorem BinaryOp.apply_of_rejects {op : BinaryOp} {left right : Value}
    (hrejects : op.Rejects left.kind right.kind) :
    op.apply left right = .error (.typeMismatch op.symbol [left.kind, right.kind]) := by
  unfold Rejects at hrejects
  split at hrejects
  next heq =>
    subst heq
    exact if_neg hrejects
  next heq =>
    unfold apply
    split
    next => exact absurd ⟨rfl, rfl⟩ hrejects
    next => exact absurd rfl heq
    next => exact absurd ⟨rfl, rfl⟩ hrejects
    next => rfl

/-- An operator fails because of the kinds of its operands, or it fails at two integers. -/
theorem BinaryOp.apply_eq_error {op : BinaryOp} {left right : Value} {fault : Fault}
    (happly : op.apply left right = .error fault) :
    (op.Rejects left.kind right.kind ∧
        fault = .typeMismatch op.symbol [left.kind, right.kind]) ∨
      ∃ arith one other, op = .arith arith ∧ left = .integer one ∧ right = .integer other ∧
        arith.apply one other = .error fault := by
  unfold apply at happly
  split at happly
  next arith one other =>
    refine .inr ⟨arith, one, other, rfl, rfl, rfl, ?_⟩
    cases hresult : arith.apply one other with
    | error reason =>
        rw [hresult] at happly
        exact congrArg Except.error (Except.error.inj happly)
    | ok value =>
        rw [hresult] at happly
        cases happly
  next =>
    split at happly
    next => cases happly
    next hkinds => exact .inl ⟨by rwa [Rejects, if_pos rfl], (Except.error.inj happly).symm⟩
  next => cases happly
  next heq harith hcompare =>
    -- No case was left for two integers, as every other operator takes them.
    refine .inl ⟨?_, (Except.error.inj happly).symm⟩
    rw [Rejects, if_neg heq]
    rintro ⟨hleft, hright⟩
    obtain ⟨one, hone⟩ := Value.exists_of_kind_eq_integer hleft
    obtain ⟨other, hother⟩ := Value.exists_of_kind_eq_integer hright
    cases op with
    | arith op => exact harith op one other rfl hone hother
    | compare op => exact hcompare op one other rfl hone hother

theorem Value.truth_eq_ok_iff {context : String} {value : Value} {truth : Bool} :
    value.truth context = .ok truth ↔ value = .boolean truth := by
  cases value <;> simp [Value.truth]

/-- A construct fails at a value of any other kind than that of truth values. -/
theorem Value.truth_eq_error_iff {context : String} {value : Value} {fault : Fault} :
    value.truth context = .error fault ↔
      value.kind ≠ .boolean ∧ fault = .typeMismatch context [value.kind] := by
  cases value <;> simp [truth, kind, eq_comm]

theorem Environment.lookup_eq_error_iff {env : Environment} {name : String} {fault : Fault} :
    env.lookup name = .error fault ↔
      env.get? name = none ∧ fault = .undefinedVariable name := by
  unfold lookup
  cases env.get? name <;> simp [eq_comm]

/-! ## Expressions -/

theorem map_eq_ok_iff {Result Image : Type} {outcome : Except Fault Result}
    {shape : Result → Image} {image : Image} :
    outcome.map shape = .ok image ↔ ∃ result, outcome = .ok result ∧ shape result = image := by
  cases outcome <;> simp [Except.map]

theorem map_eq_error_iff {Result Image : Type} {outcome : Except Fault Result}
    {shape : Result → Image} {fault : Fault} :
    outcome.map shape = .error fault ↔ outcome = .error fault := by
  cases outcome <;> simp [Except.map]

/-- A sequence of two evaluations succeeds where both of them do. -/
theorem bind_eq_ok_iff {Result Next : Type} {outcome : Except Fault Result}
    {next : Result → Except Fault Next} {value : Next} :
    (outcome >>= next) = .ok value ↔ ∃ result, outcome = .ok result ∧ next result = .ok value := by
  cases outcome with
  | error reason => exact ⟨nofun, nofun⟩
  | ok result =>
      have hbind : (Except.ok result >>= next) = next result := rfl
      simp [hbind]

/-- A sequence of two evaluations fails where one of them does. -/
theorem bind_eq_error_iff {Result Next : Type} {outcome : Except Fault Result}
    {next : Result → Except Fault Next} {fault : Fault} :
    (outcome >>= next) = .error fault ↔
      outcome = .error fault ∨ ∃ result, outcome = .ok result ∧ next result = .error fault := by
  cases outcome with
  | error reason =>
      have hbind : (Except.error reason >>= next) = .error reason := rfl
      simp [hbind]
  | ok result =>
      have hbind : (Except.ok result >>= next) = next result := rfl
      simp [hbind]

namespace Expr

variable {env : Environment} {fault : Fault}

theorem eval_binary_eq_error_iff {left right : Expr} {op : BinaryOp} :
    (binary left op right).eval env = .error fault ↔
      left.eval env = .error fault ∨ ∃ one, left.eval env = .ok one ∧
        (right.eval env = .error fault ∨
          ∃ other, right.eval env = .ok other ∧ op.apply one other = .error fault) := by
  rw [eval]
  simp only [bind_eq_error_iff]

theorem eval_not_eq_error_iff {operand : Expr} :
    (not operand).eval env = .error fault ↔
      operand.eval env = .error fault ∨
        ∃ value, operand.eval env = .ok value ∧ value.truth "!" = .error fault := by
  rw [eval]
  simp [bind_eq_error_iff]

/-- An expression raises a fault itself: its operands have values, but it has none. -/
inductive Raises (env : Environment) (fault : Fault) : Expr → Prop where
  | ident {name} : env.lookup name = .error fault → Raises env fault (ident name)
  | not {operand value} : operand.eval env = .ok value → value.truth "!" = .error fault →
      Raises env fault (not operand)
  | binary {left op right one other} : left.eval env = .ok one → right.eval env = .ok other →
      op.apply one other = .error fault → Raises env fault (binary left op right)

/-- An evaluation that fails does so because an expression inside raises the fault. -/
theorem exists_raises_of_eval {value : Expr} (heval : value.eval env = .error fault) :
    ∃ part ∈ value.parts, part.Raises env fault := by
  induction value with
  | binary left op right ihleft ihright =>
      unfold parts
      rcases eval_binary_eq_error_iff.mp heval with
        hleft | ⟨one, hleft, hright | ⟨other, hright, happly⟩⟩
      · obtain ⟨part, hpart, hraises⟩ := ihleft hleft
        exact ⟨part, List.mem_cons_of_mem _ (List.mem_append_left _ hpart), hraises⟩
      · obtain ⟨part, hpart, hraises⟩ := ihright hright
        exact ⟨part, List.mem_cons_of_mem _ (List.mem_append_right _ hpart), hraises⟩
      · exact ⟨_, List.mem_cons_self, .binary hleft hright happly⟩
  | not operand ih =>
      unfold parts
      rcases eval_not_eq_error_iff.mp heval with hoperand | ⟨value, hoperand, htruth⟩
      · obtain ⟨part, hpart, hraises⟩ := ih hoperand
        exact ⟨part, List.mem_cons_of_mem _ hpart, hraises⟩
      · exact ⟨_, List.mem_cons_self, .not hoperand htruth⟩
  | ident name => exact ⟨_, List.mem_cons_self, .ident heval⟩
  | int value => cases heval
  | bool value => cases heval
  | str text => cases heval

end Expr

end PlZero
