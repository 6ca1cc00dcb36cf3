import PlZero.Operator

/-! # Expressions

The tree of an expression, and its fully parenthesised text. The tree is wider than the source
language: a literal may be negative, and a name or a string may hold any text.
-/

namespace PlZero

/-- An expression without source positions. -/
inductive Expr where
  | binary (left : Expr) (op : BinaryOp) (right : Expr)
  | not (operand : Expr)
  | ident (name : String)
  | int (value : Int64)
  | bool (value : Bool)
  | str (text : String)
  deriving DecidableEq

/-- The text of a truth value. -/
def boolText : Bool → String
  | true => "true"
  | false => "false"

/-- Every binary node stands in its own parentheses, so the grouping is visible. -/
def Expr.render : Expr → String
  | .binary left op right =>
      "(" ++ left.render ++ " " ++ op.symbol ++ " " ++ right.render ++ ")"
  | .not operand => "!" ++ operand.render
  | .ident name => name
  | .int value => toString value.toInt
  | .bool value => boolText value
  | .str text => "\"" ++ text ++ "\""

end PlZero
