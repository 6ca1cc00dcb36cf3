/-! # Parsing expressions

A parsing expression says how a text is read: choices are ordered, repetitions are greedy and
nothing is tried a second time. Rules are called by name, so a grammar is a function from names
to parsing expressions. A successful reading leaves a forest of nodes, one for every rule that
was entered outside a token.
-/

namespace PlZero

/-- A parsing expression over rules named by `R`. -/
inductive Peg (R : Type) where
  | empty
  | word (text : List Char)
  | char (accepts : Char → Bool)
  | seq (first next : Peg R)
  | choice (first other : Peg R)
  | star (body : Peg R)
  | ahead (body : Peg R)
  | notAhead (body : Peg R)
  | enter (rule : R)

namespace Peg

variable {R : Type}

/-- Items one after another. -/
def all : List (Peg R) → Peg R
  | [] => .empty
  | [item] => item
  | item :: items => .seq item (all items)

/-- The first alternative that matches; there is none among no alternatives. -/
def oneOf : List (Peg R) → Peg R
  | [] => .notAhead .empty
  | [item] => item
  | item :: items => .choice item (oneOf items)

/-- At most one occurrence. -/
def opt (body : Peg R) : Peg R := .choice body .empty

/-- At least one occurrence. -/
def plus (body : Peg R) : Peg R := .seq body (.star body)

/-- Nothing is left to read. -/
def finish : Peg R := .notAhead (.char fun _ => true)

/-- A place in a text: how many characters lie before it and which ones follow. -/
structure Cursor where
  offset : Nat
  rest : List Char

/-- The first place of a text. -/
def Cursor.start (text : List Char) : Cursor := ⟨0, text⟩

/-- The place `count` characters further on. -/
def Cursor.advance (cursor : Cursor) (count : Nat) : Cursor :=
  ⟨cursor.offset + count, cursor.rest.drop count⟩

/-- The place after the longest run of characters of a class. -/
def Cursor.skip (cursor : Cursor) (blank : Char → Bool) : Cursor :=
  cursor.advance (cursor.rest.takeWhile blank).length

/-- What a rule matched: where, which characters, and the nodes inside. -/
inductive Node (R : Type) where
  | mk (rule : R) (offset : Nat) (text : List Char) (children : List (Node R))

/-- The rule that made a node. -/
def Node.rule : Node R → R
  | ⟨rule, _, _, _⟩ => rule

/-- The characters a node covers. -/
def Node.text : Node R → List Char
  | ⟨_, _, text, _⟩ => text

/-- The nodes of the rules entered inside. -/
def Node.children : Node R → List (Node R)
  | ⟨_, _, _, children⟩ => children

/-- The furthest place at which rules failed, with those rules in the order of their failures. -/
structure Trace (R : Type) where
  offset : Nat
  tried : List R

namespace Trace

/-- Nothing has failed. -/
def start : Trace R := ⟨0, []⟩

/-- How many failures are noted at a place. -/
def count (trace : Trace R) (offset : Nat) : Nat :=
  if offset = trace.offset then trace.tried.length else 0

/-- Notes that `rule` failed at `offset`, where `before` failures were noted on its entry. A rule
inside it explains the failure better if it is the only one noted there since; otherwise `rule`
takes the place of those noted since its entry. Places before the furthest one are ignored. -/
def record (trace : Trace R) (rule : R) (offset before : Nat) : Trace R :=
  if trace.count offset = before + 1 then trace
  else if trace.offset < offset then ⟨offset, [rule]⟩
  else if offset = trace.offset then ⟨offset, trace.tried.take before ++ [rule]⟩
  else trace

end Trace

end Peg

end PlZero
