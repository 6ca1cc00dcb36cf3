import PlZero.Grammar.Language
import PlZero.Proofs.Stmt.Portable

/-! # What parsing expressions stand for

Outside tokens the rules of the grammar stand for phrases, and so do the parsing expressions built
from them: their parts follow one another, choices are not ordered and repetitions are not greedy.
What stands for a rule's body stands for the rule.
-/

namespace PlZero

open Relation (Comp ReflTransGen)

/-- Some tree has a phrase. -/
def SomePhrase {Tree : Type} (derives : List Char → Tree → List Char → Prop)
    (input rest : List Char) : Prop := ∃ tree, derives input tree rest

/-- The phrases that a rule stands for. Literals and the forms of a statement stand for whatever
may replace them. -/
def Rule.Phrase : Rule → List Char → List Char → Prop
  | .stmt | .assign | .print | .branch | .loop => SomePhrase Stmt.Derives
  | .block => SomePhrase Block.Braced
  | .expr => SomePhrase (Expr.Derives .comparison)
  | .chain => SomePhrase (Expr.Derives .sum)
  | .int | .str | .bool _ => SomePhrase (Expr.Derives .operand)
  | .ident => SomePhrase fun input name rest => Name name input rest
  | .compare op => Symbol op.symbol
  | .arith op => Symbol op.symbol
  | .negation => Symbol "!"
  | .printWord => LoneWord "p"
  | .finish | .program | .wholeExpr | .wholeStmt | .reserved => fun _ _ => False

/-- The phrases that a parsing expression stands for, if it looks at nothing it does not take. -/
def Peg.Phrase : Peg Rule → List Char → List Char → Prop
  | .empty => Eq
  | .word text => fun input rest => Skips input (text ++ rest)
  | .seq first next => Comp first.Phrase next.Phrase
  | .choice first other => fun input rest => first.Phrase input rest ∨ other.Phrase input rest
  | .star body => ReflTransGen body.Phrase
  | .enter rule => rule.Phrase
  | .char _ | .ahead _ | .notAhead _ => fun _ _ => False

/-! ## Blanks before phrases -/

theorem Rule.Phrase.of_skips {rule : Rule} {before input rest : List Char}
    (hskips : Skips before input) (hphrase : rule.Phrase input rest) :
    rule.Phrase before rest := by
  cases rule with
  | stmt | assign | print | branch | loop =>
      obtain ⟨stmt, hstmt⟩ := hphrase
      exact ⟨stmt, hstmt.of_skips hskips⟩
  | block =>
      obtain ⟨block, hblock⟩ := hphrase
      exact ⟨block, hblock.of_skips hskips⟩
  | expr | chain | int | str | bool _ =>
      obtain ⟨value, hvalue⟩ := hphrase
      exact ⟨value, hvalue.of_skips hskips⟩
  | ident =>
      obtain ⟨name, hname⟩ := hphrase
      exact ⟨name, hname.1, hname.2.of_skips hskips⟩
  | compare _ | arith _ | negation => exact Symbol.of_skips hskips hphrase
  | printWord => exact LoneWord.of_skips hskips hphrase
  | finish | program | wholeExpr | wholeStmt | reserved => exact hphrase.elim

/-- Blanks before a phrase belong to it, or are behind it if it is empty. -/
theorem Peg.Phrase.of_skips {peg : Peg Rule} {before input rest : List Char}
    (hskips : Skips before input) (hphrase : peg.Phrase input rest) :
    Comp peg.Phrase Skips before rest := by
  induction peg generalizing before input rest with
  | empty => exact ⟨before, rfl, (hphrase : input = rest) ▸ hskips⟩
  | word text => exact ⟨rest, hskips.trans hphrase, .refl rest⟩
  | seq first next ihfirst ihnext =>
      obtain ⟨middle, hfirst, hnext⟩ := hphrase
      obtain ⟨stop, hfirst, hstop⟩ := ihfirst hskips hfirst
      obtain ⟨last, hnext, hlast⟩ := ihnext hstop hnext
      exact ⟨last, ⟨stop, hfirst, hnext⟩, hlast⟩
  | choice first other ihfirst ihother =>
      rcases hphrase with hfirst | hother
      · obtain ⟨stop, hfirst, hstop⟩ := ihfirst hskips hfirst
        exact ⟨stop, .inl hfirst, hstop⟩
      · obtain ⟨stop, hother, hstop⟩ := ihother hskips hother
        exact ⟨stop, .inr hother, hstop⟩
  | star body ih =>
      induction hphrase using ReflTransGen.head_induction_on generalizing before with
      | refl => exact ⟨before, .refl, hskips⟩
      | head hfirst _ ihothers =>
          obtain ⟨middle, hfirst, hmiddle⟩ := ih hskips hfirst
          obtain ⟨stop, hothers, hstop⟩ := ihothers hmiddle
          exact ⟨stop, hothers.head hfirst, hstop⟩
  | enter rule => exact ⟨rest, Rule.Phrase.of_skips hskips hphrase, .refl rest⟩
  | char _ | ahead _ _ | notAhead _ _ => exact hphrase.elim

/-! ## Phrases in front of another text -/

theorem Rule.Phrase.portable {rule : Rule} {input rest : List Char}
    (hphrase : rule.Phrase input rest) : Portable rule.Phrase input rest := by
  cases rule with
  | stmt | assign | print | branch | loop =>
      obtain ⟨stmt, hstmt⟩ := hphrase
      exact hstmt.portable.mono fun _ _ hstmt => ⟨stmt, hstmt⟩
  | block =>
      obtain ⟨block, hblock⟩ := hphrase
      exact hblock.portable.mono fun _ _ hblock => ⟨block, hblock⟩
  | expr | chain | int | str | bool _ =>
      obtain ⟨value, hvalue⟩ := hphrase
      exact hvalue.portable.mono fun _ _ hvalue => ⟨value, hvalue⟩
  | ident =>
      obtain ⟨name, hname⟩ := hphrase
      exact hname.2.portable.mono fun _ _ hword => ⟨name, hname.1, hword⟩
  | compare _ | arith _ | negation => exact Symbol.portable hphrase
  | printWord => exact LoneWord.portable hphrase
  | finish | program | wholeExpr | wholeStmt | reserved => exact hphrase.elim

theorem Peg.Phrase.portable {peg : Peg Rule} {input rest : List Char}
    (hphrase : peg.Phrase input rest) : Portable peg.Phrase input rest := by
  induction peg generalizing input rest with
  | empty =>
      obtain rfl : input = rest := hphrase
      exact .nil fun _ => rfl
  | word text =>
      obtain ⟨blanks, hblanks, rfl⟩ := hphrase
      refine ⟨blanks ++ text, (List.append_assoc _ _ _).symm, fun other _ => ?_⟩
      exact ⟨blanks, hblanks, List.append_assoc _ _ _⟩
  | seq first next ihfirst ihnext =>
      obtain ⟨middle, hfirst, hnext⟩ := hphrase
      exact (ihfirst hfirst).comp (ihnext hnext)
  | choice first other ihfirst ihother =>
      rcases hphrase with hfirst | hother
      · exact (ihfirst hfirst).mono fun _ _ => .inl
      · exact (ihother hother).mono fun _ _ => .inr
  | star body ih =>
      induction hphrase using ReflTransGen.head_induction_on with
      | refl => exact .nil fun _ => .refl
      | head hfirst _ ihothers =>
          refine ((ih hfirst).comp ihothers).mono ?_
          rintro _ _ ⟨_, hfirst, hothers⟩
          exact hothers.head hfirst
  | enter rule => exact Rule.Phrase.portable hphrase
  | char _ | ahead _ _ | notAhead _ _ => exact hphrase.elim

/-! ## The bodies of rules -/

open PlZero.Language
open Peg (all)

theorem exists_block_of_stmts {input rest : List Char}
    (hstmts : (Peg.star (.enter .stmt)).Phrase input rest) :
    SomePhrase Block.Derives input rest := by
  induction hstmts using ReflTransGen.head_induction_on with
  | refl => exact ⟨[], .nil⟩
  | head hfirst _ ih =>
      obtain ⟨stmt, hstmt⟩ := hfirst
      obtain ⟨others, hothers⟩ := ih
      exact ⟨stmt :: others, .cons hstmt hothers⟩

theorem exists_braced_of_stmts {input start stop rest : List Char}
    (hopening : Symbol "\x7b" input start) (hstmts : (Peg.star (.enter .stmt)).Phrase start stop)
    (hclosing : Symbol "\x7d" stop rest) : SomePhrase Block.Braced input rest := by
  obtain ⟨block, hblock⟩ := exists_block_of_stmts hstmts
  exact ⟨block, .braces hopening hblock hclosing⟩

theorem derives_operand_of_phrase {input rest : List Char} (hoperand : operand.Phrase input rest) :
    SomePhrase (Expr.Derives .operand) input rest := by
  rcases hoperand with hvalue | hvalue | hvalue | hvalue | ⟨name, hname⟩ | hparens
  · exact hvalue
  · exact hvalue
  · exact hvalue
  · exact hvalue
  · exact ⟨.ident name, .ident hname⟩
  · obtain ⟨_, hopening, _, ⟨value, hvalue⟩, hclosing⟩ := hparens
    exact ⟨value, .parens hopening hvalue hclosing⟩

theorem exists_factor_of_phrase {input middle rest : List Char}
    (hnegations : (Peg.star (.enter .negation)).Phrase input middle)
    (hoperand : operand.Phrase middle rest) : SomePhrase Factor.Derives input rest := by
  obtain ⟨value, hvalue⟩ := derives_operand_of_phrase hoperand
  induction hnegations using ReflTransGen.head_induction_on with
  | refl => exact ⟨_, .operand hvalue⟩
  | head hsign _ ih =>
      obtain ⟨factor, hfactor⟩ := ih
      exact ⟨_, .negation hsign hfactor⟩

theorem exists_op_of_arithmetic_phrase {input rest : List Char}
    (harithmetic : arithmetic.Phrase input rest) :
    ∃ op, Symbol (ArithOp.symbol op) input rest := by
  rcases harithmetic with hsign | hsign | hsign | hsign | hsign <;> exact ⟨_, hsign⟩

theorem exists_op_of_comparison_phrase {input rest : List Char}
    (hcomparison : comparison.Phrase input rest) :
    ∃ op, Symbol (CompareOp.symbol op) input rest := by
  rcases hcomparison with hsign | hsign | hsign | hsign | hsign <;> exact ⟨_, hsign⟩

theorem exists_links_of_phrase {input rest : List Char}
    (hlinks : (Peg.star (all [arithmetic, .star (.enter .negation), operand])).Phrase input rest) :
    SomePhrase Links.Derives input rest := by
  induction hlinks using ReflTransGen.head_induction_on with
  | refl => exact ⟨[], .nil⟩
  | head hfirst _ ih =>
      obtain ⟨_, harithmetic, _, hnegations, hoperand⟩ := hfirst
      obtain ⟨op, hsign⟩ := exists_op_of_arithmetic_phrase harithmetic
      obtain ⟨factor, hfactor⟩ := exists_factor_of_phrase hnegations hoperand
      obtain ⟨links, hlinks⟩ := ih
      exact ⟨(op, factor) :: links, .cons hsign hfactor hlinks⟩

/-- Comparisons group to the left, so what precedes the last one is a comparison again. -/
theorem derives_comparison_of_phrase {input middle rest : List Char}
    (hfirst : SomePhrase (Expr.Derives .sum) input middle)
    (hothers : (Peg.star (all [comparison, .enter .chain])).Phrase middle rest) :
    SomePhrase (Expr.Derives .comparison) input rest := by
  induction hothers with
  | refl =>
      obtain ⟨value, hvalue⟩ := hfirst
      exact ⟨value, .ofSum hvalue⟩
  | tail _ hlast ih =>
      obtain ⟨left, hleft⟩ := ih
      obtain ⟨_, hcomparison, right, hright⟩ := hlast
      obtain ⟨op, hsign⟩ := exists_op_of_comparison_phrase hcomparison
      exact ⟨_, .compare hleft hsign hright⟩

/-- The rules outside tokens that stand for phrases and whose bodies look at nothing they do not
take. -/
def Rule.isPlain : Rule → Bool
  | .finish | .program | .wholeExpr | .wholeStmt | .print => false
  | rule => !isToken rule

/-- What stands for the body of a rule stands for the rule. -/
theorem Rule.phrase_of_body {rule : Rule} (hrule : rule.isPlain) {input rest : List Char}
    (hbody : (body rule).Phrase input rest) : rule.Phrase input rest := by
  cases rule with
  | stmt => rcases hbody with hform | hform | hform | hform <;> exact hform
  | assign =>
      obtain ⟨_, ⟨name, hname⟩, _, hsign, value, hvalue⟩ := hbody
      exact ⟨_, .assign hname hsign hvalue⟩
  | branch =>
      obtain ⟨_, hword, _, hopening, _, ⟨condition, hcondition⟩, _, hclosing, _, ⟨yes, hyes⟩,
        helse⟩ := hbody
      rcases helse with ⟨_, helse, no, hno⟩ | rfl
      · exact ⟨_, .branchElse hword hopening hcondition hclosing hyes helse hno⟩
      · exact ⟨_, .branch hword hopening hcondition hclosing hyes⟩
  | loop =>
      obtain ⟨_, hword, _, hopening, _, ⟨condition, hcondition⟩, _, hclosing, body, hbody⟩ := hbody
      exact ⟨_, .loop hword hopening hcondition hclosing hbody⟩
  | block =>
      obtain ⟨_, hopening, _, hstmts, hclosing⟩ := hbody
      exact exists_braced_of_stmts hopening hstmts hclosing
  | expr =>
      obtain ⟨_, hfirst, hothers⟩ := hbody
      exact derives_comparison_of_phrase hfirst hothers
  | chain =>
      obtain ⟨_, hnegations, _, hoperand, hlinks⟩ := hbody
      obtain ⟨factor, hfactor⟩ := exists_factor_of_phrase hnegations hoperand
      obtain ⟨links, hlinks⟩ := exists_links_of_phrase hlinks
      exact ⟨_, derives_sum_iff.mpr ⟨_, _, _, hfactor, hlinks, rfl⟩⟩
  | compare op => cases op <;> exact hbody
  | arith op => cases op <;> exact hbody
  | negation => exact hbody
  | _ => cases hrule

/-! ## A phrase of every rule -/

/-- A text that a rule matches. -/
def Rule.sample : Rule → List Char
  | .finish | .program => []
  | .wholeStmt | .stmt | .assign => ['x', '=', '0']
  | .print => ['p', ' ', '0']
  | .branch => ['i', 'f', '(', '0', ')', '\x7b', '\x7d']
  | .loop => ['w', 'h', 'i', 'l', 'e', '(', '0', ')', '\x7b', '\x7d']
  | .block => ['\x7b', '\x7d']
  | .wholeExpr | .expr | .chain | .int => ['0']
  | .compare op => op.symbol.toList
  | .arith op => op.symbol.toList
  | .negation => ['!']
  | .str => ['"', '"']
  | .bool value => (boolText value).toList
  | .reserved | .printWord => ['p']
  | .ident => ['x']

section Sample

variable {tail : List Char}

theorem derives_zero (htail : ∀ char ∈ tail.head?, char.isDigit = false) :
    Expr.Derives .operand ('0' :: tail) (.int 0) tail := by
  exact .int ⟨'0' :: tail, ['0'], .refl _, .single rfl htail, by simp, by decide⟩

theorem someExpr_zero (htail : ∀ char ∈ tail.head?, char.isDigit = false) :
    SomePhrase (Expr.Derives .comparison) ('0' :: tail) tail :=
  ⟨_, .ofSum (.ofProduct (.ofNegation (.ofOperand (derives_zero htail))))⟩

theorem name_x (htail : ∀ char ∈ tail.head?, char.isAlphanum = false) :
    Name "x" ('x' :: tail) tail :=
  ⟨⟨⟨'x', [], rfl, by decide, by simp⟩, by decide⟩, 'x' :: tail, .refl _, .single rfl htail⟩

theorem braced_nil (tail : List Char) : Block.Braced ('\x7b' :: '\x7d' :: tail) [] tail :=
  .braces (.refl _) .nil (.refl _)

theorem StartsLike.stops {accepts : Char → Bool} (htail : StartsLike [] tail)
    (hblank : ∀ char, isBlank char → accepts char = false) :
    ∀ char ∈ tail.head?, accepts char = false := by
  intro char hchar
  rcases htail char hchar with hnone | hblankChar
  · cases hnone
  · exact hblank char hblankChar

end Sample

/-- The rules outside tokens that stand for phrases, and the tokens. -/
def Rule.isInner : Rule → Bool
  | .finish | .program | .wholeExpr | .wholeStmt | .reserved => false
  | _ => true

/-- A print statement is the only phrase whose rule looks ahead. -/
theorem Rule.eq_print_of_not_isPlain {rule : Rule} (htoken : isToken rule = false)
    (hinner : rule.isInner) (hplain : rule.isPlain = false) : rule = .print := by
  cases rule with
  | print => rfl
  | finish | program | wholeExpr | wholeStmt => cases hinner
  | int | str | bool _ | reserved | printWord | ident => cases htoken
  | _ => cases hplain

/-- A sample in front of a blank is a phrase of its rule. -/
theorem Rule.phrase_sample {rule : Rule} (hrule : rule.isInner) {tail : List Char}
    (htail : StartsLike [] tail) : rule.Phrase (rule.sample ++ tail) tail := by
  have hword := htail.stops fun _ => isAlphanum_eq_false_of_isBlank
  have hdigit := htail.stops fun _ => isDigit_eq_false_of_isBlank
  cases rule with
  | stmt | assign =>
      obtain ⟨value, hvalue⟩ := someExpr_zero hdigit
      exact ⟨_, .assign (name_x (by simp)) (.refl _) hvalue⟩
  | print =>
      obtain ⟨value, hvalue⟩ := someExpr_zero hdigit
      have hstart : LoneWord "p" ('p' :: ' ' :: '0' :: tail) (' ' :: '0' :: tail) :=
        ⟨_, .refl _, .single rfl (by simp)⟩
      exact ⟨_, .print hstart (hvalue.of_skips (.space _))⟩
  | branch =>
      obtain ⟨value, hvalue⟩ := @someExpr_zero (')' :: '\x7b' :: '\x7d' :: tail) (by simp)
      exact ⟨_, .branch (.refl _) (.refl _) hvalue (.refl _) (braced_nil tail)⟩
  | loop =>
      obtain ⟨value, hvalue⟩ := @someExpr_zero (')' :: '\x7b' :: '\x7d' :: tail) (by simp)
      exact ⟨_, .loop (.refl _) (.refl _) hvalue (.refl _) (braced_nil tail)⟩
  | block => exact ⟨_, braced_nil tail⟩
  | expr => exact someExpr_zero hdigit
  | chain => exact ⟨_, .ofProduct (.ofNegation (.ofOperand (derives_zero hdigit)))⟩
  | int => exact ⟨_, derives_zero hdigit⟩
  | str => exact ⟨.str "", .str ⟨by simp, .refl _⟩⟩
  | bool value =>
      have hchars : ∀ char ∈ (boolText value).toList, char.isAlphanum :=
        List.all_eq_true.mp (by cases value <;> decide)
      exact ⟨.bool value, .bool ⟨_, .refl _, rfl, hchars, hword⟩⟩
  | ident => exact ⟨"x", name_x hword⟩
  | compare op => exact Skips.refl _
  | arith op => exact Skips.refl _
  | negation => exact Skips.refl _
  | printWord => exact ⟨_, .refl _, .single rfl hword⟩
  | _ => cases hrule

/-- A parsing expression that looks at nothing it does not take. -/
def Peg.isPlain : Peg Rule → Bool
  | .empty | .word _ => true
  | .seq first next | .choice first next => first.isPlain && next.isPlain
  | .star body => body.isPlain
  | .enter rule => rule.isInner
  | .char _ | .ahead _ | .notAhead _ => false

theorem Rule.isPlain_body {rule : Rule} (hrule : rule.isPlain) : (body rule).isPlain := by
  cases rule with
  | compare op => cases op <;> rfl
  | arith op => cases op <;> rfl
  | finish | program | wholeExpr | wholeStmt | print => cases hrule
  | int | str | bool _ | reserved | printWord | ident => cases hrule
  | _ => rfl

/-- Some phrase of a parsing expression stands in front of a blank, and starts with one. -/
theorem Peg.exists_phrase {peg : Peg Rule} (hpeg : peg.isPlain) {tail : List Char}
    (htail : StartsLike [] tail) : ∃ input, StartsLike [] input ∧ peg.Phrase input tail := by
  induction peg generalizing tail with
  | empty => exact ⟨tail, htail, rfl⟩
  | word text => exact ⟨' ' :: (text ++ tail), .blank [] rfl _, .space _⟩
  | seq first next ihfirst ihnext =>
      obtain ⟨hfirst, hnext⟩ := Bool.and_eq_true_iff.mp hpeg
      obtain ⟨middle, hmiddle, hnext⟩ := ihnext hnext htail
      obtain ⟨input, hinput, hfirst⟩ := ihfirst hfirst hmiddle
      exact ⟨input, hinput, middle, hfirst, hnext⟩
  | choice first other ihfirst ihother =>
      obtain ⟨input, hinput, hfirst⟩ := ihfirst (Bool.and_eq_true_iff.mp hpeg).1 htail
      exact ⟨input, hinput, .inl hfirst⟩
  | star body ih => exact ⟨tail, htail, .refl⟩
  | enter rule =>
      exact ⟨_, .blank [] rfl _, (Rule.phrase_sample hpeg htail).of_skips (.space _)⟩
  | char _ | ahead _ _ | notAhead _ _ => cases hpeg

end PlZero
