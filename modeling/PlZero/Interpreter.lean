import PlZero.Exec
import PlZero.Parse

/-! # Interpreting source texts

A state can be fed programs and expressions as text. A text that cannot be read changes nothing;
a fault ends only the text it arose in.
-/

namespace PlZero

/-- Why a source text was not interpreted to its end. -/
inductive Error where
  | inSource (error : SyntaxError)
  | inRun (fault : Fault)

namespace Error

/-- What went wrong, in words. -/
def render : Error → String
  | .inSource error => error.render
  | .inRun fault => fault.message

/-- What a user is told, with the place in the text that is to be shown. -/
def diagnostic (shown : String) : Error → Diagnostic
  | .inSource error => error.diagnostic shown
  | .inRun fault => fault.diagnostic

end Error

namespace State

variable {Out : Type}

/-- No variables, and anything to write to. -/
def withOutput (out : Out) : State Out := ⟨.empty, out⟩

/-- No variables, and a sink. -/
def fresh (sink : Sink) : State := .withOutput sink

/-- Reads and runs a program. -/
def interpret [Output Out] (budget : Nat) (source : String) (state : State Out) :
    Option (Except Error Unit × State Out) :=
  match Program.parse source with
  | .error error => some (.error (.inSource error), state)
  | .ok program =>
      (Block.exec budget program state).map fun (result, state) =>
        (result.mapError .inRun, state)

/-- Reads and evaluates an expression, which changes nothing. -/
def interpretExpr (source : String) (state : State Out) : Except Error Value :=
  match Expr.parse source with
  | .error error => .error (.inSource error)
  | .ok value => (value.eval state.env).mapError .inRun

end State

end PlZero
