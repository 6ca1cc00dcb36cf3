import PlZero.Peg.Basic

/-! # Reading a text by a grammar

`Peg.read` gives the meaning of one parsing expression, with rule calls left to its caller, and
`Grammar.call` ties the knot. Outside tokens the blanks between the items of a sequence and of a
repetition are skipped, and every rule leaves a node when it matches and a note in the trace when
it fails. Inside a token nothing is skipped, noted or kept.

A chain of calls that reads nothing never meets a rule twice, as long as no rule of the grammar
calls itself at its own start. So the number of rules times the number of places bounds the depth
of calls, and `Grammar.match?` never meets its bound.
-/

namespace PlZero

namespace Peg

variable {R : Type}

/-- The nodes of a successful reading and the place behind it. -/
structure Found (R : Type) where
  nodes : List (Node R)
  stop : Cursor

/-- A successful reading or a failure, and the failures noted so far. -/
abbrev Outcome (R : Type) := Option (Found R) × Trace R

/-- A way to read on from a place. -/
abbrev Reader (R : Type) := Cursor → Trace R → Outcome R

/-- Further items of a repetition, each behind a gap, up to the first attempt that fails; at most
`bound` attempts are made. -/
def repeatRead (gap : Cursor → Cursor) (item : Reader R) :
    Nat → Cursor → Trace R → Found R × Trace R
  | 0, cursor, trace => (⟨[], cursor⟩, trace)
  | bound + 1, cursor, trace =>
      match item (gap cursor) trace with
      | (none, trace) => (⟨[], cursor⟩, trace)
      | (some found, trace) =>
          let (others, trace) := repeatRead gap item bound found.stop trace
          (⟨found.nodes ++ others.nodes, others.stop⟩, trace)

/-- Reads on by a parsing expression. Every item of a repetition takes a character, so there is
at most one attempt more than there are characters left. -/
def read (call : R → Reader R) (gap : Cursor → Cursor) : Peg R → Reader R
  | .empty, cursor, trace => (some ⟨[], cursor⟩, trace)
  | .word text, cursor, trace =>
      if text.isPrefixOf cursor.rest then (some ⟨[], cursor.advance text.length⟩, trace)
      else (none, trace)
  | .char accepts, cursor, trace =>
      match cursor.rest with
      | [] => (none, trace)
      | head :: _ => if accepts head then (some ⟨[], cursor.advance 1⟩, trace) else (none, trace)
  | .seq first next, cursor, trace =>
      match first.read call gap cursor trace with
      | (none, trace) => (none, trace)
      | (some found, trace) =>
          match next.read call gap (gap found.stop) trace with
          | (none, trace) => (none, trace)
          | (some others, trace) => (some ⟨found.nodes ++ others.nodes, others.stop⟩, trace)
  | .choice first other, cursor, trace =>
      match first.read call gap cursor trace with
      | (none, trace) => other.read call gap cursor trace
      | (some found, trace) => (some found, trace)
  | .star body, cursor, trace =>
      match body.read call gap cursor trace with
      | (none, trace) => (some ⟨[], cursor⟩, trace)
      | (some found, trace) =>
          let (others, trace) := repeatRead gap (body.read call gap)
            (found.stop.rest.length + 1) found.stop trace
          (some ⟨found.nodes ++ others.nodes, others.stop⟩, trace)
  | .ahead body, cursor, trace =>
      match body.read call gap cursor trace with
      | (none, trace) => (none, trace)
      | (some _, trace) => (some ⟨[], cursor⟩, trace)
  | .notAhead body, cursor, trace =>
      match body.read call gap cursor trace with
      | (none, _) => (some ⟨[], cursor⟩, trace)
      | (some _, _) => (none, trace)
  | .enter rule, cursor, trace => call rule cursor trace

end Peg

/-- Named parsing expressions, with the rules that are tokens and the characters that may stand
between two items outside a token. -/
structure Grammar (R : Type) where
  rules : List R
  body : R → Peg R
  isToken : R → Bool
  blank : Char → Bool

namespace Grammar

open Peg

variable {R : Type}

/-- What may stand between two items: blanks outside a token and nothing inside one. -/
def gap (grammar : Grammar R) (inToken : Bool) (cursor : Cursor) : Cursor :=
  if inToken then cursor else cursor.skip grammar.blank

/-- Reads on by a rule, with at most `depth` calls inside one another. -/
def call (grammar : Grammar R) : Nat → Bool → R → Reader R
  | 0, _, _, _, trace => (none, trace)
  | depth + 1, true, rule, cursor, trace =>
      (grammar.body rule).read (grammar.call depth true) (grammar.gap true) cursor trace
  | depth + 1, false, rule, cursor, trace =>
      let inToken := grammar.isToken rule
      match (grammar.body rule).read (grammar.call depth inToken) (grammar.gap inToken)
          cursor trace with
      | (some found, after) =>
          let text := cursor.rest.take (found.stop.offset - cursor.offset)
          (some ⟨[⟨rule, cursor.offset, text, found.nodes⟩], found.stop⟩, after)
      | (none, after) => (none, after.record rule cursor.offset (trace.count cursor.offset))

/-- A depth of calls that no reading of a text of this length reaches. -/
def depth (grammar : Grammar R) (length : Nat) : Nat :=
  (length + 1) * grammar.rules.length

/-- Reads a text from its start by a rule: the node it leaves, or the furthest failures. -/
def match? (grammar : Grammar R) (rule : R) (text : List Char) : Except (Trace R) (Node R) :=
  match grammar.call (grammar.depth text.length) false rule (.start text) .start with
  | (some ⟨[node], _⟩, _) => .ok node
  | (_, trace) => .error trace

end Grammar

end PlZero
