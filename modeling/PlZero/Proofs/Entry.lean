import PlZero.Proofs.Parse

/-! # Entries

A whole text is read as a program, as a single statement or as a single expression. What can be
wrong with it does not depend on the tree, so the three ways are treated as one here.
-/

namespace PlZero

open Peg (Node)

/-- What a whole text can be read as. -/
inductive Entry where
  | program
  | stmt
  | expr

namespace Entry

/-- The rule that reads the text. -/
def rule : Entry → Rule
  | .program => .program
  | .stmt => .wholeStmt
  | .expr => .wholeExpr

/-- Whether the nodes inside become a tree. -/
def build (entry : Entry) (nodes : List (Node Rule)) : Except TreeError Unit :=
  match entry, nodes with
  | .program, nodes => (Program.ofNodes nodes).map fun _ => ()
  | .stmt, node :: _ => (Stmt.ofNode node).map fun _ => ()
  | .expr, node :: _ => (Expr.ofNode node).map fun _ => ()
  | .stmt, [] => .error (.misshapen .wholeStmt)
  | .expr, [] => .error (.misshapen .wholeExpr)

/-- Whether a text is read, whatever its tree. -/
def check : Entry → String → Except SyntaxError Unit
  | .program, source => (Program.parse source).map fun _ => ()
  | .stmt, source => (Stmt.parse source).map fun _ => ()
  | .expr, source => (Expr.parse source).map fun _ => ()

theorem map_parseBy {Tree : Type} {rule : Rule} {build : List (Node Rule) → Except TreeError Tree}
    {other : List (Node Rule) → Except TreeError Unit} {source : String}
    (hbuild : ∀ nodes, (build nodes).map (fun _ => ()) = other nodes) :
    (parseBy rule build source).map (fun _ => ()) =
      match language.match? rule source.toList with
      | .error trace => .error (.ofTrace source trace)
      | .ok node => (other node.children).mapError (.ofTreeError source) := by
  rw [parseBy]
  cases language.match? rule source.toList with
  | error trace => rfl
  | ok node =>
      simp only [← hbuild]
      cases build node.children <;> rfl

/-- A text is read by its grammar first, and then a tree is built. -/
theorem check_eq (entry : Entry) (source : String) :
    entry.check source =
      match language.match? entry.rule source.toList with
      | .error trace => .error (.ofTrace source trace)
      | .ok node => (entry.build node.children).mapError (.ofTreeError source) := by
  cases entry with
  | program => exact map_parseBy fun _ => rfl
  | stmt => exact map_parseBy fun nodes => by cases nodes <;> rfl
  | expr => exact map_parseBy fun nodes => by cases nodes <;> rfl

/-- A text is not read if it does not match, or if what matches has no tree. -/
theorem check_eq_error_iff {entry : Entry} {source : String} {error : SyntaxError} :
    entry.check source = .error error ↔
      (∃ trace, language.match? entry.rule source.toList = .error trace ∧
        error = .ofTrace source trace) ∨
      ∃ node reason, language.match? entry.rule source.toList = .ok node ∧
        entry.build node.children = .error reason ∧ error = .ofTreeError source reason := by
  rw [check_eq]
  cases language.match? entry.rule source.toList with
  | error trace => simp [eq_comm]
  | ok node =>
      cases hbuild : entry.build node.children with
      | error reason =>
          have hmap : (Except.error reason : Except TreeError Unit).mapError
              (SyntaxError.ofTreeError source) = .error (.ofTreeError source reason) := rfl
          simp [hmap, hbuild, eq_comm]
      | ok value =>
          have hmap : (Except.ok value : Except TreeError Unit).mapError
              (SyntaxError.ofTreeError source) = .ok value := rfl
          simp [hmap, hbuild]

/-- An error that lists rules is that of a text that does not match. -/
theorem exists_trace_of_unexpected {entry : Entry} {source : String} {error : SyntaxError}
    {expected : List Rule} (hcheck : entry.check source = .error error)
    (hcause : error.cause = .unexpected expected) :
    ∃ trace, language.match? entry.rule source.toList = .error trace ∧
      error = .ofTrace source trace := by
  rcases check_eq_error_iff.mp hcheck with hmatch | ⟨node, reason, -, -, rfl⟩
  · exact hmatch
  · cases reason <;> cases hcause

end Entry

end PlZero
