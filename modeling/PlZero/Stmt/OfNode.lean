import PlZero.Expr.OfNode
import PlZero.Stmt

/-! # Statements from the nodes of a reading

Parts are visited in the order of the text, so of several literals that do not fit the first one
is reported. A branch without its second block gets an empty one.
-/

namespace PlZero

open Peg (Node)

/-- The name a node stands for. -/
def nameOfNode : Node Rule → Except TreeError String
  | ⟨.ident, _, name, _⟩ => .ok (.ofList name)
  | ⟨rule, _, _, _⟩ => .error (.misshapen rule)

namespace Stmt

mutual

/-- The statement of a statement node. -/
def ofNode : Node Rule → Except TreeError Stmt
  | ⟨.stmt, _, _, [node]⟩ => ofForm node
  | ⟨rule, _, _, _⟩ => .error (.misshapen rule)

/-- The statement of the node inside a statement node. -/
def ofForm : Node Rule → Except TreeError Stmt
  | ⟨.assign, _, _, [name, value]⟩ => do
      let name ← nameOfNode name
      let value ← Expr.ofNode value
      .ok (.assign name value)
  | ⟨.print, _, _, [value]⟩ => do
      let value ← Expr.ofNode value
      .ok (.print value)
  | ⟨.branch, _, _, [condition, yes]⟩ => do
      let condition ← Expr.ofNode condition
      let yes ← ofBlock yes
      .ok (.branch condition yes [])
  | ⟨.branch, _, _, [condition, yes, no]⟩ => do
      let condition ← Expr.ofNode condition
      let yes ← ofBlock yes
      let no ← ofBlock no
      .ok (.branch condition yes no)
  | ⟨.loop, _, _, [condition, body]⟩ => do
      let condition ← Expr.ofNode condition
      let body ← ofBlock body
      .ok (.loop condition body)
  | ⟨rule, _, _, _⟩ => .error (.misshapen rule)

/-- The statements of a block node. -/
def ofBlock : Node Rule → Except TreeError Block
  | ⟨.block, _, _, children⟩ => ofNodes children
  | ⟨rule, _, _, _⟩ => .error (.misshapen rule)

/-- The statements of several statement nodes. -/
def ofNodes : List (Node Rule) → Except TreeError Block
  | [] => .ok []
  | node :: others => do
      let first ← ofNode node
      let others ← ofNodes others
      .ok (first :: others)

end

end Stmt

/-- The statements of a program node, whose last child marks the end of the text. -/
def Program.ofNodes : List (Node Rule) → Except TreeError Program
  | [] => .ok []
  | ⟨.finish, _, _, _⟩ :: others => ofNodes others
  | node :: others => do
      let first ← Stmt.ofNode node
      let others ← ofNodes others
      .ok (first :: others)

end PlZero
