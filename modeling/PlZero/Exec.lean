import PlZero.Eval
import PlZero.Sink
import PlZero.Stmt

/-! # Execution

A statement takes a state to a state. A fault stops everything that would come after it, and
leaves what was assigned and printed before. A run may go on forever, so it is given a budget: no
loop may check its condition more often than that. A run that ends is the same under every
budget that lets it end.
-/

namespace PlZero

/-- The variables, and where printed values go. -/
structure State (Out : Type := Sink) where
  env : Environment
  sink : Out

/-- How a run ended, with the state it left. -/
abbrev Ending (Out : Type := Sink) := Except Fault Unit × State Out

variable {Out : Type}

/-- Writes the line of a value. -/
def State.print [Output Out] (state : State Out) (value : Value) : Ending Out :=
  let (result, sink) := Output.print state.sink value
  (result.mapError .output, { state with sink })

/-- Runs a body as long as a condition holds, which is checked at most `budget` times. -/
def repeatWhile (condition : Environment → Except Fault Bool)
    (body : State Out → Option (Ending Out)) : Nat → State Out → Option (Ending Out)
  | 0, _ => none
  | budget + 1, state =>
      match condition state.env with
      | .error fault => some (.error fault, state)
      | .ok false => some (.ok (), state)
      | .ok true =>
          match body state with
          | some (.ok (), state) => repeatWhile condition body budget state
          | stopped => stopped

mutual

/-- Runs a statement; there is no ending if a loop exceeds the budget. -/
def Stmt.exec [Output Out] (budget : Nat) : Stmt → State Out → Option (Ending Out)
  | .assign name value, state =>
      match value.eval state.env with
      | .ok value => some (.ok (), { state with env := state.env.assign name value })
      | .error fault => some (.error fault, state)
  | .branch condition yes no, state =>
      match condition.test "if" state.env with
      | .ok true => Block.exec budget yes state
      | .ok false => Block.exec budget no state
      | .error fault => some (.error fault, state)
  | .loop condition body, state =>
      repeatWhile (condition.test "while") (Block.exec budget body) budget state
  | .print value, state =>
      match value.eval state.env with
      | .ok value => some (state.print value)
      | .error fault => some (.error fault, state)

/-- Runs the statements of a block in order, up to the first one that stops. -/
def Block.exec [Output Out] (budget : Nat) : Block → State Out → Option (Ending Out)
  | [], state => some (.ok (), state)
  | first :: others, state =>
      match first.exec budget state with
      | some (.ok (), state) => Block.exec budget others state
      | stopped => stopped

end

end PlZero
