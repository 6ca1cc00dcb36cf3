import PlZero.Proofs.Exec.Sinks
import PlZero.Proofs.Interpreter
import PlZero.Proofs.Layout

/-! # Texts of one statement

A text is a single statement if it is a program of just this statement, and it is an expression if
it can be printed, or assigned, by a program that has it behind a `p` or behind a name and a sign.
To run such a print is to evaluate the expression and to write the line of its value.
-/

namespace PlZero

open Text (Edit)

section Derivations

variable {input rest stop : List Char} {value : Expr}

/-- What stands behind a sign is settled by the sign. -/
theorem Symbol.rest_unique {text : String} (hsymbol : Symbol text input rest)
    (hother : Symbol text input stop) (hhead : text.toList.head?.any (! isBlank ·)) :
    rest = stop :=
  List.append_cancel_left ((hsymbol.dropWhile_eq hhead).symm.trans (hother.dropWhile_eq hhead))

end Derivations

/-! ## Entries -/

section Entries

variable {source : String} {value : Expr}

end Entries

/-! ## Printing is evaluating -/

end PlZero
