import PlZero.Diagnostic
import PlZero.Value

/-! # Faults

Why a run stops before its end.
-/

namespace PlZero

/-- A failure of a run. The texts name a variable, the construct that met a value of a kind it
does not take, an operator, or what a sink said. -/
inductive Fault where
  | undefinedVariable (name : String)
  | typeMismatch (context : String) (found : List Kind)
  | divisionByZero (operator : String)
  | integerOverflow (operator : String)
  | output (reason : String)
  deriving DecidableEq

namespace Fault

/-- Kinds in a sentence. -/
def describeKinds : List Kind → String
  | [left, right] => left.name ++ " and " ++ right.name
  | kinds => ", ".intercalate (kinds.map Kind.name)

/-- What went wrong, in words. -/
def message : Fault → String
  | .undefinedVariable name => "undefined variable `" ++ name ++ "`"
  | .typeMismatch context found =>
      "type mismatch: `" ++ context ++ "` cannot be applied to " ++ describeKinds found
  | .divisionByZero operator => "division by zero in `" ++ operator ++ "`"
  | .integerOverflow operator => "integer overflow in `" ++ operator ++ "`"
  | .output reason => "failed to write output: " ++ reason

/-- What a user is told about a fault. -/
def diagnostic (fault : Fault) : Diagnostic := .inRun fault.message

end Fault

end PlZero
