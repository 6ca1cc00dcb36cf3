import PlZero.Environment
import PlZero.Word

/-! # Evaluation

Operands are evaluated from left to right, both of them always, before an operator is applied.
Arithmetic is exact: a result that is not a word is a fault. Equality compares two values of the
same kind; every other operator takes integers only.
-/

namespace PlZero

/-- The result over unbounded integers. A quotient is rounded toward zero and a remainder has the
sign of the left operand. -/
def ArithOp.exact : ArithOp → Int → Int → Int
  | .add, left, right => left + right
  | .sub, left, right => left - right
  | .mul, left, right => left * right
  | .div, left, right => left.tdiv right
  | .rem, left, right => left.tmod right

/-- The integer that has to be a word: the result, and for a remainder the quotient that belongs
to it. -/
def ArithOp.critical : ArithOp → Int → Int → Int
  | .rem, left, right => left.tdiv right
  | op, left, right => op.exact left right

/-- The operators that take no zero on their right. -/
def ArithOp.isDivision : ArithOp → Bool
  | .div | .rem => true
  | _ => false

/-- Applies an arithmetic operator to two words. -/
def ArithOp.apply (op : ArithOp) (left right : Int64) : Except Fault Int64 :=
  if op.isDivision && right = 0 then .error (.divisionByZero op.symbol)
  else if FitsWord (op.critical left.toInt right.toInt) then
    .ok (Int64.ofInt (op.exact left.toInt right.toInt))
  else .error (.integerOverflow op.symbol)

/-- Whether two words compare as an operator says. -/
def CompareOp.holds : CompareOp → Int64 → Int64 → Bool
  | .lt, left, right => left < right
  | .gt, left, right => right < left
  | .le, left, right => left ≤ right
  | .ge, left, right => right ≤ left
  | .eq, left, right => left = right

/-- Applies an operator to two values. -/
def BinaryOp.apply (op : BinaryOp) (left right : Value) : Except Fault Value :=
  match op, left, right with
  | .arith op, .integer left, .integer right => (op.apply left right).map .integer
  | .compare .eq, left, right =>
      if left.kind = right.kind then .ok (.boolean (left = right))
      else .error (.typeMismatch CompareOp.eq.symbol [left.kind, right.kind])
  | .compare op, .integer left, .integer right => .ok (.boolean (op.holds left right))
  | op, left, right => .error (.typeMismatch op.symbol [left.kind, right.kind])

/-- The truth value that a construct asks for. -/
def Value.truth (context : String) : Value → Except Fault Bool
  | .boolean value => .ok value
  | value => .error (.typeMismatch context [value.kind])

/-- The value of an expression, or the first fault in the order of evaluation. -/
def Expr.eval (env : Environment) : Expr → Except Fault Value
  | .binary left op right => do
      let left ← left.eval env
      let right ← right.eval env
      op.apply left right
  | .not operand => do
      let operand ← operand.eval env
      let truth ← operand.truth "!"
      .ok (.boolean !truth)
  | .ident name => env.lookup name
  | .int value => .ok (.integer value)
  | .bool value => .ok (.boolean value)
  | .str text => .ok (.text text)

/-- The truth value of a condition. -/
def Expr.test (context : String) (condition : Expr) (env : Environment) : Except Fault Bool := do
  let value ← condition.eval env
  value.truth context

end PlZero
