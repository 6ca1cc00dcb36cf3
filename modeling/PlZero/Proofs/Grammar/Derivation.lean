import PlZero.Grammar.Language
import PlZero.Stmt

/-! # The language as a context-free grammar

What a text means, told without a way to read it. `Derives input tree rest` says that a start of
`input` is a phrase of `tree` and `rest` is what follows it. Every token may have blanks before
it; alternatives are not ordered, nothing is greedy, and the tiers of expressions are left
recursive. Words and numbers are told apart by what follows them alone.
-/

namespace PlZero

/-- Nothing but blanks stands before `rest`. -/
def Skips (input rest : List Char) : Prop :=
  ∃ blanks, (∀ char ∈ blanks, isBlank char) ∧ input = blanks ++ rest

/-- A text starts with `run`, which belongs to a class and is not followed by a character of the
class. -/
structure WholeRun (accepts : Char → Bool) (input run rest : List Char) : Prop where
  eq_append : input = run ++ rest
  accepts_run : ∀ char ∈ run, accepts char
  stops : ∀ char ∈ rest.head?, accepts char = false

/-- A sign, or a word that may be followed by anything. -/
def Symbol (text : String) (input rest : List Char) : Prop := Skips input (text.toList ++ rest)

/-- A word that is not followed by a letter or a digit. -/
def LoneWord (word : String) (input rest : List Char) : Prop :=
  ∃ start, Skips input start ∧ WholeRun Char.isAlphanum start word.toList rest

/-- The words that are not names. -/
def keywords : List String := ["if", "else", "while", "p", "true", "false"]

/-- A letter and then letters and digits, but no keyword. -/
def IsName (name : String) : Prop :=
  (∃ head tail, name.toList = head :: tail ∧ head.isAlpha ∧ ∀ char ∈ tail, char.isAlphanum) ∧
    name ∉ keywords

/-- A name that is not followed by a letter or a digit. -/
def Name (name : String) (input rest : List Char) : Prop := IsName name ∧ LoneWord name input rest

/-- Digits that are not followed by a digit and make up a word. A number that is not in the range
of a word is no integer of the language. -/
def Integer (value : Int64) (input rest : List Char) : Prop :=
  ∃ start digits, Skips input start ∧ WholeRun Char.isDigit start digits rest ∧ digits ≠ [] ∧
    value.toInt = Nat.ofDigitChars 10 digits 0

/-- A text without quotes between two quotes. -/
def Quoted (text : String) (input rest : List Char) : Prop :=
  '"' ∉ text.toList ∧ Skips input ('"' :: text.toList ++ '"' :: rest)

/-- How tightly an expression holds together, from loosest to tightest. -/
inductive Tier where
  | comparison
  | sum
  | product
  | negation
  | operand

namespace Expr

/-- The phrases of expressions. -/
inductive Derives : Tier → List Char → Expr → List Char → Prop where
  | ofSum {input value rest} :
      Derives .sum input value rest → Derives .comparison input value rest
  | compare {input left middle right rest} {op : CompareOp} {next : List Char} :
      Derives .comparison input left middle → Symbol op.symbol middle next →
      Derives .sum next right rest →
      Derives .comparison input (.binary left (.compare op) right) rest
  | ofProduct {input value rest} :
      Derives .product input value rest → Derives .sum input value rest
  | add {input left middle right rest} {op : ArithOp} {next : List Char} :
      op ∈ [ArithOp.add, .sub] →
      Derives .sum input left middle → Symbol op.symbol middle next →
      Derives .product next right rest →
      Derives .sum input (.binary left (.arith op) right) rest
  | ofNegation {input value rest} :
      Derives .negation input value rest → Derives .product input value rest
  | multiply {input left middle right rest} {op : ArithOp} {next : List Char} :
      op ∈ [ArithOp.mul, .div, .rem] →
      Derives .product input left middle → Symbol op.symbol middle next →
      Derives .negation next right rest →
      Derives .product input (.binary left (.arith op) right) rest
  | ofOperand {input value rest} :
      Derives .operand input value rest → Derives .negation input value rest
  | not {input next value rest} :
      Symbol "!" input next → Derives .negation next value rest →
      Derives .negation input (.not value) rest
  | int {value input rest} : Integer value input rest → Derives .operand input (.int value) rest
  | str {text input rest} : Quoted text input rest → Derives .operand input (.str text) rest
  | bool {value input rest} :
      LoneWord (boolText value) input rest → Derives .operand input (.bool value) rest
  | ident {name input rest} : Name name input rest → Derives .operand input (.ident name) rest
  | parens {input inner value outer rest} :
      Symbol "(" input inner → Derives .comparison inner value outer → Symbol ")" outer rest →
      Derives .operand input value rest

end Expr

mutual

/-- The phrases of single statements. -/
inductive Stmt.Derives : List Char → Stmt → List Char → Prop where
  | assign {input name afterName start value rest} :
      Name name input afterName → Symbol "=" afterName start →
      Expr.Derives .comparison start value rest → Stmt.Derives input (.assign name value) rest
  | print {input start value rest} :
      LoneWord "p" input start → Expr.Derives .comparison start value rest →
      Stmt.Derives input (.print value) rest
  | branch {input afterIf start condition afterCondition next yes rest} :
      Symbol "if" input afterIf → Symbol "(" afterIf start →
      Expr.Derives .comparison start condition afterCondition → Symbol ")" afterCondition next →
      Block.Braced next yes rest → Stmt.Derives input (.branch condition yes []) rest
  | branchElse {input afterIf start condition afterCondition next yes afterYes other no rest} :
      Symbol "if" input afterIf → Symbol "(" afterIf start →
      Expr.Derives .comparison start condition afterCondition → Symbol ")" afterCondition next →
      Block.Braced next yes afterYes → Symbol "else" afterYes other →
      Block.Braced other no rest → Stmt.Derives input (.branch condition yes no) rest
  | loop {input afterWhile start condition afterCondition next body rest} :
      Symbol "while" input afterWhile → Symbol "(" afterWhile start →
      Expr.Derives .comparison start condition afterCondition → Symbol ")" afterCondition next →
      Block.Braced next body rest → Stmt.Derives input (.loop condition body) rest

/-- The phrases of blocks in their braces. -/
inductive Block.Braced : List Char → Block → List Char → Prop where
  | braces {input start block stop rest} :
      Symbol "\x7b" input start → Block.Derives start block stop → Symbol "\x7d" stop rest →
      Block.Braced input block rest

/-- The phrases of statements that follow one another, with nothing between them. -/
inductive Block.Derives : List Char → Block → List Char → Prop where
  | nil {rest} : Block.Derives rest [] rest
  | cons {input first next others rest} :
      Stmt.Derives input first next → Block.Derives next others rest →
      Block.Derives input (first :: others) rest

end

section Phrases

variable {Tree : Type} (derives : List Char → Tree → List Char → Prop)

/-- A phrase that ends at a place or at the blanks before it. -/
def Spans (input : List Char) (tree : Tree) (stop : List Char) : Prop :=
  ∃ rest, derives input tree rest ∧ Skips rest stop

/-- A text is a phrase with nothing but blanks behind it. -/
def DerivesAll (source : String) (tree : Tree) : Prop := Spans derives source.toList tree []

/-- No text is a phrase in two ways that differ in their trees. -/
def Unambiguous : Prop :=
  ∀ source tree other, DerivesAll derives source tree → DerivesAll derives source other →
    tree = other

end Phrases

end PlZero
