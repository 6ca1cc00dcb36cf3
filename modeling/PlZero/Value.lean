import PlZero.Expr

/-! # Values

What an expression evaluates to, and the three kinds of values.
-/

namespace PlZero

/-- A value of the language. -/
inductive Value where
  | integer (value : Int64)
  | boolean (value : Bool)
  | text (value : String)
  deriving DecidableEq

/-- The kind of a value, which operators and conditions ask for. -/
inductive Kind where
  | integer
  | boolean
  | text
  deriving DecidableEq

/-- The kind of a value. -/
def Value.kind : Value → Kind
  | .integer _ => .integer
  | .boolean _ => .boolean
  | .text _ => .text

/-- The text that is printed for a value; a text stands for itself, without quotes. -/
def Value.render : Value → String
  | .integer value => toString value.toInt
  | .boolean value => boolText value
  | .text value => value

/-- The name of a kind. -/
def Kind.name : Kind → String
  | .integer => "integer"
  | .boolean => "boolean"
  | .text => "text"

end PlZero
