import PlZero.Eval

/-! # Values of expressions

What an expression with a value says about its operands.
-/

namespace PlZero

theorem Environment.lookup_eq_ok_iff {env : Environment} {name : String} {value : Value} :
    env.lookup name = .ok value ↔ env.get? name = some value := by
  rw [lookup]
  cases env.get? name <;> simp

/-- No operator makes a text. -/
theorem BinaryOp.apply_ne_text (op : BinaryOp) (left right : Value) (text : String) :
    op.apply left right ≠ .ok (.text text) := by
  intro happly
  unfold apply at happly
  split at happly
  next op left right =>
    rcases hresult : op.apply left right with fault | result <;> rw [hresult] at happly <;>
      cases happly
  next => split at happly <;> cases happly
  next => cases happly
  next => cases happly

namespace Expr

variable {env : Environment} {result : Value}

theorem eval_binary_eq_ok_iff {left right : Expr} {op : BinaryOp} :
    (binary left op right).eval env = .ok result ↔
      ∃ one other, left.eval env = .ok one ∧ right.eval env = .ok other ∧
        op.apply one other = .ok result := by
  rw [eval]
  rcases left.eval env with fault | one
  · exact ⟨nofun, nofun⟩
  · rcases right.eval env with fault | other
    · exact ⟨nofun, nofun⟩
    · constructor
      · exact fun happly => ⟨one, other, rfl, rfl, happly⟩
      · rintro ⟨_, _, hone, hother, happly⟩
        cases hone
        cases hother
        exact happly

theorem eval_not_eq_ok_iff {operand : Expr} :
    (not operand).eval env = .ok result ↔
      ∃ truth, operand.eval env = .ok (.boolean truth) ∧ result = .boolean !truth := by
  rw [eval]
  rcases operand.eval env with fault | value
  · exact ⟨nofun, nofun⟩
  · cases value with
    | boolean truth =>
        constructor
        · intro hresult
          exact ⟨truth, rfl, (Except.ok.inj hresult).symm⟩
        · rintro ⟨_, htruth, rfl⟩
          cases htruth
          rfl
    | integer value => exact ⟨nofun, nofun⟩
    | text value => exact ⟨nofun, nofun⟩

end Expr

end PlZero
