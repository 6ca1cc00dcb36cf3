import PlZero.Expr

/-! # Arithmetic chains

A chain lists operands, arithmetic operators and negations as they stand in the text. Its tree is
found by precedence climbing: an operator takes everything to its right that binds tighter, and
operators of equal power group to the left.
-/

namespace PlZero

/-- One member of a chain. -/
inductive ChainItem where
  | operand (value : Expr)
  | infixOp (op : ArithOp)
  | negation

/-- How tightly an operator between two operands binds. -/
def ArithOp.power : ArithOp → Nat
  | .add | .sub => 1
  | .mul | .div | .rem => 2

namespace Chain

/-- Negation binds tighter than every operator between two operands. -/
def negationPower : Nat := 3

mutual

/-- The tree of the longest start of a chain whose operators bind tighter than `floor`, and the
items behind it. There is none if the chain does not start with an operand behind negations. -/
def climb : Nat → Nat → List ChainItem → Option (Expr × List ChainItem)
  | 0, _, _ => none
  | fuel + 1, floor, .operand value :: items => extend fuel floor value items
  | fuel + 1, floor, .negation :: items => do
      let (operand, items) ← climb fuel (negationPower - 1) items
      extend fuel floor (.not operand) items
  | _ + 1, _, _ => none

/-- Goes on from a tree that is finished on its left. -/
def extend : Nat → Nat → Expr → List ChainItem → Option (Expr × List ChainItem)
  | _, _, left, [] => some (left, [])
  | 0, _, _, _ :: _ => none
  | fuel + 1, floor, left, .infixOp op :: items =>
      if floor < op.power then do
        let (right, items) ← climb fuel op.power items
        extend fuel floor (.binary left (.arith op) right) items
      else some (left, .infixOp op :: items)
  | _ + 1, _, _, _ => none

end

/-- The tree of a whole chain. Every call takes an item before it makes another one, so the number
of items is enough fuel. -/
def tree? (items : List ChainItem) : Option Expr :=
  match climb items.length 0 items with
  | some (value, []) => some value
  | _ => none

end Chain

end PlZero
