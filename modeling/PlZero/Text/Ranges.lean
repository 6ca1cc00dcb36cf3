/-! # Classes of characters given by ranges

A class of code points is written as the list of its ranges, both ends included.
-/

namespace PlZero.Text

/-- Whether a character lies in one of several ranges of code points. -/
def inRanges (ranges : List (Nat × Nat)) (char : Char) : Bool :=
  ranges.any fun (first, last) => first ≤ char.toNat && char.toNat ≤ last

end PlZero.Text
