/-! # Binary operators

The five arithmetic operators bind tighter than the five comparisons, so the two families are
kept apart and a binary operator is one or the other.
-/

namespace PlZero

/-- Operators that take two integers to an integer. -/
inductive ArithOp where
  | add
  | sub
  | mul
  | div
  | rem
  deriving DecidableEq

/-- Operators that take two values to a truth value. -/
inductive CompareOp where
  | lt
  | gt
  | le
  | ge
  | eq
  deriving DecidableEq

/-- An operator between two operands. -/
inductive BinaryOp where
  | arith (op : ArithOp)
  | compare (op : CompareOp)
  deriving DecidableEq

/-- The sign an arithmetic operator is written with. -/
def ArithOp.symbol : ArithOp → String
  | .add => "+"
  | .sub => "-"
  | .mul => "*"
  | .div => "/"
  | .rem => "%"

/-- The sign a comparison is written with. -/
def CompareOp.symbol : CompareOp → String
  | .lt => "<"
  | .gt => ">"
  | .le => "<="
  | .ge => ">="
  | .eq => "=="

/-- The sign an operator is written with. -/
def BinaryOp.symbol : BinaryOp → String
  | .arith op => op.symbol
  | .compare op => op.symbol

end PlZero
