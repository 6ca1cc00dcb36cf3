/-! # Similar spellings

How similar two spellings are, between 0 and 1. Two characters match if they are equal and their
places are close; matched characters in a different order are transposed.
-/

namespace PlZero.CommandLine

namespace Similarity

/-- Marks the first free place in a window that holds a character; `place` is the number of the
first one given. -/
def claim (char : Char) (first last : Nat) : Nat → List (Char × Bool) → Option (List (Char × Bool))
  | _, [] => none
  | place, (other, taken) :: others =>
      if first ≤ place && place ≤ last && other = char && !taken then some ((other, true) :: others)
      else (claim char first last (place + 1) others).map ((other, taken) :: ·)

/-- The characters of a text that match, in order, and the places they match. -/
def matching (range : Nat) : Nat → List Char → List (Char × Bool) → List Char × List (Char × Bool)
  | _, [], places => ([], places)
  | index, char :: chars, places =>
      match claim char (index - range) (index + range) 0 places with
      | some places =>
          let (found, places) := matching range (index + 1) chars places
          (char :: found, places)
      | none => matching range (index + 1) chars places

/-- The similarity of two texts: the mean of the matched share of each and of the share of the
matches that are not transposed. -/
def score (left right : List Char) : Float :=
  let range := max left.length right.length / 2 - 1
  let (found, places) := matching range 0 left (right.map fun char => (char, false))
  let others := (places.filter Prod.snd).map Prod.fst
  let count := found.length
  let transposed := ((found.zip others).filter fun (one, other) => one ≠ other).length / 2
  let share := fun (part whole : Nat) => Float.ofNat part / Float.ofNat whole
  if left.isEmpty && right.isEmpty then 1
  else if count = 0 then 0
  else
    (share count left.length + share count right.length + share (count - transposed) count) / 3

/-- What a candidate has to exceed to be called similar. -/
def threshold : Float := 0.7

/-- The candidate most similar to a text, if one is similar enough; of equals the last one. -/
def closest? (text : String) (candidates : List String) : Option String :=
  let scored := candidates.map fun candidate => (score text.toList candidate.toList, candidate)
  let best := (scored.filter fun (score, _) => threshold < score).foldl
    (fun best (score, candidate) =>
      match best with
      | none => some (score, candidate)
      | some (bound, _) => if bound ≤ score then some (score, candidate) else best)
    none
  best.map Prod.snd

end Similarity

end PlZero.CommandLine
