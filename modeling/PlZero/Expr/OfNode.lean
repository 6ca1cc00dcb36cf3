import PlZero.Expr.Chain
import PlZero.Grammar.Language
import PlZero.Word

/-! # Expressions from the nodes of a reading

A node becomes a tree if its children have the shape its rule promises and every integer literal
fits in a word. Children are visited in the order of the text, so of several literals that do not
fit the first one is reported.
-/

namespace PlZero

open Peg (Node)

/-- Why a node has no tree. -/
inductive TreeError where
  | misshapen (rule : Rule)
  | oversized (offset : Nat) (digits : List Char)

/-- The integer a literal stands for, if it fits in a word. -/
def intOfDigits? (digits : List Char) : Option Int64 :=
  wordOfInt? (Nat.ofDigitChars 10 digits 0)

/-- The text between the first and the last character of a literal, if there are two. -/
def unquote? (text : List Char) : Option (List Char) :=
  if 2 ≤ text.length then some (text.drop 1).dropLast else none

namespace Expr

mutual

/-- The expression of the children of an expression node: chains between comparisons. -/
def ofNodes : List (Node Rule) → Except TreeError Expr
  | first :: others => do
      let left ← ofChain first
      ofComparisons left others
  | [] => .error (.misshapen .expr)

/-- Comparisons group to the left. -/
def ofComparisons (left : Expr) : List (Node Rule) → Except TreeError Expr
  | [] => .ok left
  | ⟨.compare op, _, _, _⟩ :: right :: others => do
      let right ← ofChain right
      ofComparisons (.binary left (.compare op) right) others
  | _ => .error (.misshapen .expr)

/-- The expression of a chain. -/
def ofChain : Node Rule → Except TreeError Expr
  | ⟨.chain, _, _, children⟩ => do
      let items ← ofItems children
      match Chain.tree? items with
      | some value => .ok value
      | none => .error (.misshapen .chain)
  | ⟨rule, _, _, _⟩ => .error (.misshapen rule)

/-- The members of a chain. -/
def ofItems : List (Node Rule) → Except TreeError (List ChainItem)
  | [] => .ok []
  | node :: others => do
      let item ← ofItem node
      let items ← ofItems others
      .ok (item :: items)

/-- One member of a chain. -/
def ofItem : Node Rule → Except TreeError ChainItem
  | ⟨.arith op, _, _, _⟩ => .ok (.infixOp op)
  | ⟨.negation, _, _, _⟩ => .ok .negation
  | ⟨.int, offset, digits, _⟩ =>
      match intOfDigits? digits with
      | some value => .ok (.operand (.int value))
      | none => .error (.oversized offset digits)
  | ⟨.str, _, text, _⟩ =>
      match unquote? text with
      | some text => .ok (.operand (.str (.ofList text)))
      | none => .error (.misshapen .str)
  | ⟨.bool value, _, _, _⟩ => .ok (.operand (.bool value))
  | ⟨.ident, _, name, _⟩ => .ok (.operand (.ident (.ofList name)))
  | ⟨.expr, _, _, children⟩ => do
      let value ← ofNodes children
      .ok (.operand value)
  | ⟨rule, _, _, _⟩ => .error (.misshapen rule)

end

/-- The expression of an expression node. -/
def ofNode : Node Rule → Except TreeError Expr
  | ⟨.expr, _, _, children⟩ => ofNodes children
  | ⟨rule, _, _, _⟩ => .error (.misshapen rule)

end Expr

end PlZero
