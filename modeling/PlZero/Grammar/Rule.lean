import PlZero.Operator

/-! # Rules of the grammar

The names of everything a source text can contain, what a reader is told they are, and the order
in which several of them are listed.
-/

namespace PlZero

/-- A kind of phrase or token. -/
inductive Rule where
  | finish
  | program
  | wholeExpr
  | wholeStmt
  | stmt
  | assign
  | print
  | branch
  | loop
  | block
  | expr
  | chain
  | compare (op : CompareOp)
  | arith (op : ArithOp)
  | negation
  | int
  | str
  | bool (value : Bool)
  | reserved
  | printWord
  | ident
  deriving DecidableEq

namespace Rule

/-- Every rule, in the order in which expectations are listed. -/
def list : List Rule :=
  [.finish, .program, .wholeExpr, .wholeStmt, .stmt, .assign, .print, .branch, .loop, .block,
    .expr, .chain, .compare .le, .compare .ge, .compare .eq, .compare .lt, .compare .gt,
    .arith .add, .arith .sub, .arith .mul, .arith .div, .arith .rem, .negation,
    .int, .str, .bool true, .bool false, .reserved, .printWord, .ident]

theorem mem_list (rule : Rule) : rule ∈ list := by
  cases rule with
  | compare op => cases op <;> decide
  | arith op => cases op <;> decide
  | bool value => cases value <;> decide
  | _ => decide

/-- What a message calls a rule. Different rules may share a name. -/
def describe : Rule → String
  | .finish => "end of input"
  | .program => "program"
  | .stmt | .wholeStmt => "statement"
  | .expr | .wholeExpr | .chain => "expression"
  | .block => "block"
  | .assign => "assignment"
  | .print => "print statement"
  | .branch => "if statement"
  | .loop => "while statement"
  | .compare _ => "comparison operator"
  | .arith _ => "arithmetic operator"
  | .negation => "`!`"
  | .int => "integer"
  | .str => "string"
  | .bool _ => "boolean"
  | .reserved | .printWord => "keyword"
  | .ident => "identifier"

end Rule

end PlZero
