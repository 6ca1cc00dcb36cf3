import PlZero.Stmt
import PlZero.Text.Quoted

/-! # Outlines of trees

An outline shows a tree with the names of its parts, on one line or with one part a line. Groups
of parts come in three kinds: named parts in curly brackets, unnamed parts in round ones, and
lists in square ones.
-/

namespace PlZero

/-- The brackets around a group of parts. -/
inductive Bracket where
  | round
  | curly
  | square

namespace Bracket

/-- The opening bracket. -/
def opening : Bracket → String
  | .round => "("
  | .curly => " \x7b"
  | .square => "["

/-- The closing bracket. -/
def closing : Bracket → String
  | .round => ")"
  | .curly => "\x7d"
  | .square => "]"

/-- What stands between a bracket and a part on the same line. -/
def padding : Bracket → String
  | .curly => " "
  | _ => ""

end Bracket

/-- A tree of texts. -/
inductive Outline where
  | atom (text : String)
  | labelled (label : String) (part : Outline)
  | group (head : String) (bracket : Bracket) (parts : List Outline)

namespace Outline

mutual

/-- The outline on one line. -/
def line : Outline → String
  | .atom text => text
  | .labelled label part => label ++ ": " ++ part.line
  | .group head bracket [] => head ++ bracket.opening ++ bracket.closing
  | .group head bracket (part :: parts) =>
      head ++ bracket.opening ++ bracket.padding ++ part.line ++ lineRest parts ++
        bracket.padding ++ bracket.closing

/-- Further parts on one line. -/
def lineRest : List Outline → String
  | [] => ""
  | part :: parts => ", " ++ part.line ++ lineRest parts

end

/-- The start of a line at a depth: four spaces for each level. -/
def indent (depth : Nat) : String := String.ofList (List.replicate (4 * depth) ' ')

mutual

/-- The outline with one part a line; an empty group stays on its line. -/
def page (depth : Nat) : Outline → String
  | .atom text => text
  | .labelled label part => label ++ ": " ++ part.page depth
  | .group head bracket [] => head ++ bracket.opening ++ bracket.closing
  | .group head bracket (part :: parts) =>
      head ++ bracket.opening ++ "\n" ++ pageParts (depth + 1) (part :: parts) ++ indent depth ++
        bracket.closing

/-- Parts on lines of their own, each with a comma behind it. -/
def pageParts (depth : Nat) : List Outline → String
  | [] => ""
  | part :: parts => indent depth ++ part.page depth ++ ",\n" ++ pageParts depth parts

end

end Outline

/-- The name of an operator in an outline. -/
def BinaryOp.outlineName : BinaryOp → String
  | .arith .add => "Plus"
  | .arith .sub => "Minus"
  | .arith .mul => "Multiply"
  | .arith .div => "Divide"
  | .arith .rem => "Modulo"
  | .compare .lt => "LessThan"
  | .compare .gt => "GreaterThan"
  | .compare .le => "LessThanOrEqual"
  | .compare .ge => "GreaterThanOrEqual"
  | .compare .eq => "Equal"

/-- The outline of an expression. -/
def Expr.outline : Expr → Outline
  | .binary left op right =>
      .group "Binary" .round [left.outline, .atom op.outlineName, right.outline]
  | .not operand => .group "Not" .round [operand.outline]
  | .ident name => .group "Identifier" .round [.atom (Text.quote name)]
  | .int value => .group "IntegerLiteral" .round [.atom (toString value.toInt)]
  | .bool value => .group "BooleanLiteral" .round [.atom (boolText value)]
  | .str text => .group "StringLiteral" .round [.atom (Text.quote text)]

/-- A record inside a wrapper of the same name. -/
def Outline.wrapped (name : String) (parts : List Outline) : Outline :=
  .group name .round [.group name .curly parts]

/-- A block with the given statements. -/
def Outline.block (stmts : List Outline) : Outline :=
  .group "Block" .curly [.labelled "statements" (.group "" .square stmts)]

mutual

/-- The outline of a statement. -/
def Stmt.outline : Stmt → Outline
  | .assign name value =>
      .wrapped "Assignment"
        [.labelled "lhs" (.atom (Text.quote name)), .labelled "rhs" value.outline]
  | .branch condition yes no =>
      .wrapped "IfStatement"
        [.labelled "condition" condition.outline,
          .labelled "if_branch" (.block (Block.outlines yes)),
          .labelled "else_branch" (.block (Block.outlines no))]
  | .loop condition body =>
      .wrapped "WhileStatement"
        [.labelled "condition" condition.outline, .labelled "body" (.block (Block.outlines body))]
  | .print value => .wrapped "PrintStatement" [.labelled "expression" value.outline]

/-- The outlines of the statements of a block. -/
def Block.outlines : Block → List Outline
  | [] => []
  | stmt :: stmts => stmt.outline :: Block.outlines stmts

end

/-- The outline of a block. -/
def Block.outline (block : Block) : Outline := .block (Block.outlines block)

end PlZero
