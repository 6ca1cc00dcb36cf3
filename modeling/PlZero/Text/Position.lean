/-! # Places in a text

A place is the number of characters before it. It can also be told as a number of bytes, as a
line and a column, and by the line around it.
-/

namespace PlZero.Text

/-- How many bytes the UTF-8 encoding of some characters takes. -/
def byteLength : List Char → Nat
  | [] => 0
  | head :: rest => head.utf8Size + byteLength rest

/-- How many characters the first `bytes` bytes hold, if a character ends there. -/
def charsWithin? : Nat → List Char → Option Nat
  | 0, _ => some 0
  | _ + 1, [] => none
  | bytes + 1, head :: rest =>
      if head.utf8Size ≤ bytes + 1 then (charsWithin? (bytes + 1 - head.utf8Size) rest).map (· + 1)
      else none

/-- The characters after the last line feed. -/
def lastLine (chars : List Char) : List Char :=
  (chars.reverse.takeWhile (· ≠ '\n')).reverse

/-- The characters up to and including the first line feed. -/
def firstLine (chars : List Char) : List Char :=
  chars.takeWhile (· ≠ '\n') ++ (chars.dropWhile (· ≠ '\n')).take 1

/-- The line and the column, both from one, of the place behind some characters. Only a line feed
ends a line. -/
def lineCol (before : List Char) : Nat × Nat :=
  (before.count '\n' + 1, (lastLine before).length + 1)

/-- The line around a place, with its line feed. -/
def lineAround (chars : List Char) (offset : Nat) : List Char :=
  lastLine (chars.take offset) ++ firstLine (chars.drop offset)

end PlZero.Text
