import PlZero.Grammar.Rule
import PlZero.Peg.Match

/-! # The grammar of the language

Statements follow one another without separators. Expressions have three tiers: comparisons
between arithmetic chains, and a chain mixes the arithmetic operators, whose tiers are settled
when its tree is built. A reserved word is read as such only where no letter or digit follows.
-/

namespace PlZero

/-- A letter or a digit of ASCII. -/
def isWordChar (char : Char) : Bool := char.isAlphanum

/-- Space, tab, carriage return and line feed. -/
def isBlank (char : Char) : Bool :=
  char = ' ' || char = '\t' || char = '\r' || char = '\n'

/-- The words that are not names. -/
def reservedWords : List (List Char) :=
  [['i', 'f'], ['e', 'l', 's', 'e'], ['w', 'h', 'i', 'l', 'e'], ['p'], ['t', 'r', 'u', 'e'],
    ['f', 'a', 'l', 's', 'e']]

namespace Language

open Peg

/-- A word with no letter or digit behind it. -/
def lone (word : Peg Rule) : Peg Rule := all [word, .notAhead (.char isWordChar)]

/-- One sign. -/
def sign (char : Char) : Peg Rule := .word [char]

/-- Any comparison; the longer of two signs with a common start comes first. -/
def comparison : Peg Rule :=
  oneOf [.enter (.compare .le), .enter (.compare .ge), .enter (.compare .eq),
    .enter (.compare .lt), .enter (.compare .gt)]

/-- Any arithmetic operator. -/
def arithmetic : Peg Rule :=
  oneOf [.enter (.arith .add), .enter (.arith .sub), .enter (.arith .mul), .enter (.arith .div),
    .enter (.arith .rem)]

/-- A literal, a name or an expression in parentheses. -/
def operand : Peg Rule :=
  oneOf [.enter .int, .enter .str, .enter (.bool true), .enter (.bool false), .enter .ident,
    all [sign '(', .enter .expr, sign ')']]

/-- What a rule stands for. -/
def body : Rule → Peg Rule
  | .finish => Peg.finish
  | .program => all [.empty, .star (.enter .stmt), .enter .finish]
  | .wholeExpr => all [.empty, .enter .expr, .enter .finish]
  | .wholeStmt => all [.empty, .enter .stmt, .enter .finish]
  | .stmt => oneOf [.enter .branch, .enter .loop, .enter .print, .enter .assign]
  | .assign => all [.enter .ident, sign '=', .enter .expr]
  | .print => all [.ahead (.enter .printWord), sign 'p', .enter .expr]
  | .branch =>
      all [.word ['i', 'f'], sign '(', .enter .expr, sign ')', .enter .block,
        opt (all [.word ['e', 'l', 's', 'e'], .enter .block])]
  | .loop =>
      all [.word ['w', 'h', 'i', 'l', 'e'], sign '(', .enter .expr, sign ')', .enter .block]
  | .block => all [sign '\x7b', .star (.enter .stmt), sign '\x7d']
  | .expr => all [.enter .chain, .star (all [comparison, .enter .chain])]
  | .chain =>
      all [.star (.enter .negation), operand,
        .star (all [arithmetic, .star (.enter .negation), operand])]
  | .compare .le => .word ['<', '=']
  | .compare .ge => .word ['>', '=']
  | .compare .eq => .word ['=', '=']
  | .compare .lt => sign '<'
  | .compare .gt => sign '>'
  | .arith .add => sign '+'
  | .arith .sub => sign '-'
  | .arith .mul => sign '*'
  | .arith .div => sign '/'
  | .arith .rem => sign '%'
  | .negation => sign '!'
  | .int => plus (.char Char.isDigit)
  | .str => all [sign '"', .star (.char (· ≠ '"')), sign '"']
  | .bool true => lone (.word ['t', 'r', 'u', 'e'])
  | .bool false => lone (.word ['f', 'a', 'l', 's', 'e'])
  | .reserved => lone (oneOf (reservedWords.map .word))
  | .printWord => lone (sign 'p')
  | .ident =>
      all [.notAhead (.enter .reserved), .char Char.isAlpha, .star (.char isWordChar)]

/-- The rules inside which nothing is skipped. -/
def isToken : Rule → Bool
  | .int | .str | .bool _ | .reserved | .printWord | .ident => true
  | _ => false

end Language

/-- The grammar of source texts. -/
def language : Grammar Rule := ⟨Rule.list, Language.body, Language.isToken, isBlank⟩

end PlZero
