/-! # Diagnostics

What a user is told about a failure, apart from how it is shown. A failure to read the source
points into it, by character counts; a failure of a run has no place, since trees keep none.
-/

namespace PlZero

/-- A failure as it is told to a user. -/
inductive Diagnostic where
  | inSource (start stop : Nat) (message : String)
  | inRun (message : String)

namespace Diagnostic

/-- The family of a failure. -/
def title : Diagnostic → String
  | .inSource .. => "Syntax Error"
  | .inRun _ => "Runtime Error"

/-- What went wrong. -/
def message : Diagnostic → String
  | .inSource _ _ message => message
  | .inRun message => message

/-- The characters a failure points at. -/
def range? : Diagnostic → Option (Nat × Nat)
  | .inSource start stop _ => some (start, stop)
  | .inRun _ => none

/-- A diagnostic on one line. -/
def render (diagnostic : Diagnostic) : String :=
  diagnostic.title ++ ": " ++ diagnostic.message

end Diagnostic

end PlZero
