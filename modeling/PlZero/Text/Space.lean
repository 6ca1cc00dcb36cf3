import PlZero.Text.Ranges

/-! # White space

The characters with the property `White_Space`, line ends among them.
-/

namespace PlZero.Text

/-- The ranges of the property `White_Space`. -/
def spaceRanges : List (Nat × Nat) :=
  [ (0x9, 0xD), (0x20, 0x20), (0x85, 0x85), (0xA0, 0xA0), (0x1680, 0x1680), (0x2000, 0x200A),
    (0x2028, 0x2029), (0x202F, 0x202F), (0x205F, 0x205F), (0x3000, 0x3000) ]

/-- Whether a character has the property `White_Space`. -/
def isSpace (char : Char) : Bool := inRanges spaceRanges char

end PlZero.Text
