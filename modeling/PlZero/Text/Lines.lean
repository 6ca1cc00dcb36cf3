import PlZero.Text.Space

/-! # The lines of a text

A line ends with CR LF as one end, with CR or LF alone, or with one of U+000B, U+000C, U+0085,
U+2028 and U+2029. The lines of a text, with their ends, make up the text.
-/

namespace PlZero.Text

/-- Whether a character ends a line when it is not the CR of a CR LF. -/
def isLineEnd (char : Char) : Bool :=
  char = '\n' || char = '\x0b' || char = '\x0c' || char = '\r' || char = '\u0085' ||
    char = '\u2028' || char = '\u2029'

/-- Whether a line ends behind a character that the given characters follow. -/
def endsLine (char : Char) (rest : List Char) : Bool :=
  isLineEnd char && !(char = '\r' && rest.head? = some '\n')

/-- The lines of a text, each with its end. An empty text has no line. -/
def splitLines : List Char → List (List Char)
  | [] => []
  | char :: rest =>
      if endsLine char rest then [char] :: splitLines rest
      else match splitLines rest with
        | [] => [[char]]
        | line :: lines => (char :: line) :: lines

theorem flatten_splitLines (chars : List Char) : (splitLines chars).flatten = chars := by
  induction chars with
  | nil => rfl
  | cons char rest ih =>
      rw [splitLines]
      split
      · simp [ih]
      · split
        next hlines =>
          have hrest : rest = [] := by simpa [hlines] using ih.symm
          simp [hrest]
        next line lines hlines =>
          have hrest : line ++ lines.flatten = rest := by simpa [hlines] using ih
          simp [hrest]

/-- A line and how many characters of the text lie before it. -/
structure Line where
  offset : Nat
  chars : List Char

/-- Lines that follow one another from a place on. -/
def placeLines (offset : Nat) : List (List Char) → List Line
  | [] => []
  | chars :: lines => ⟨offset, chars⟩ :: placeLines (offset + chars.length) lines

/-- The lines of a text with their places. -/
def linesOf (chars : List Char) : List Line := placeLines 0 (splitLines chars)

/-- The number of the line that holds the character at a place, from zero. -/
def lineIndex (lines : List Line) (offset : Nat) : Nat :=
  (lines.takeWhile fun line => line.offset ≤ offset).length - 1

/-- A line without the white space at its end. -/
def Line.shown (line : Line) : List Char :=
  (line.chars.reverse.dropWhile isSpace).reverse

end PlZero.Text
