import PlZero.Stmt.OfNode
import PlZero.SyntaxError

/-! # From a source text to a tree

A text is a program, a single statement or a single expression. In each case it is read by the
grammar from its start to its end, and the tree is built from the nodes of that reading.
-/

namespace PlZero

open Peg (Node)

/-- Reads a whole text by a rule and builds a tree from the nodes inside. -/
def parseBy {Tree : Type} (rule : Rule) (build : List (Node Rule) → Except TreeError Tree)
    (source : String) : Except SyntaxError Tree :=
  match language.match? rule source.toList with
  | .error trace => .error (.ofTrace source trace)
  | .ok node => (build node.children).mapError (.ofTreeError source)

/-- The program of a text; an empty text is an empty program. -/
def Program.parse (source : String) : Except SyntaxError Program :=
  parseBy .program Program.ofNodes source

/-- The expression of a text. -/
def Expr.parse (source : String) : Except SyntaxError Expr :=
  parseBy .wholeExpr
    (fun
      | node :: _ => Expr.ofNode node
      | [] => .error (.misshapen .wholeExpr))
    source

/-- The statement of a text. -/
def Stmt.parse (source : String) : Except SyntaxError Stmt :=
  parseBy .wholeStmt
    (fun
      | node :: _ => Stmt.ofNode node
      | [] => .error (.misshapen .wholeStmt))
    source

end PlZero
