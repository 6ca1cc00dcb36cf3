import PlZero.Expr

/-! # Statements

A program is a block without its braces, and a block is the list of its statements. A branch
written without an `else` has an empty second block.
-/

namespace PlZero

/-- A statement without source positions. -/
inductive Stmt where
  | assign (name : String) (value : Expr)
  | branch (condition : Expr) (yes no : List Stmt)
  | loop (condition : Expr) (body : List Stmt)
  | print (value : Expr)

/-- Statements that run one after another. -/
abbrev Block := List Stmt

/-- A whole program. -/
abbrev Program := Block

end PlZero
