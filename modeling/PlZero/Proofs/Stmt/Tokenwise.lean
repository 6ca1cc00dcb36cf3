import Mathlib.Logic.Relation
import PlZero.Proofs.Stmt.Phrases

/-! # From tokens to phrases

A phrase is its tokens, one after another. What holds of every token and of what is put together
from parts that it holds of, holds of every phrase.
-/

namespace PlZero

/-- The signs of the language, and the words that may be followed by anything. -/
def symbols : List String :=
  ["(", ")", "\x7b", "\x7d", "=", "!", "+", "-", "*", "/", "%", "<", ">", "<=", ">=", "==", "if",
    "else", "while"]

theorem ArithOp.symbol_mem (op : ArithOp) : op.symbol ∈ symbols := by
  cases op <;> decide

theorem CompareOp.symbol_mem (op : CompareOp) : op.symbol ∈ symbols := by
  cases op <;> decide

/-- A property of relations between a text and what follows its start that tokens have and that
is kept where one such relation goes on behind another. -/
structure Tokenwise
    (holds : (List Char → List Char → Prop) → List Char → List Char → Prop) : Prop where
  symbol {text : String} {input rest : List Char} :
    text ∈ symbols → Symbol text input rest → holds (Symbol text) input rest
  loneWord {word : String} {input rest : List Char} :
    word ≠ "" → LoneWord word input rest → holds (LoneWord word) input rest
  integer {value : Int64} {input rest : List Char} :
    Integer value input rest → holds (Integer value) input rest
  quoted {text : String} {input rest : List Char} :
    Quoted text input rest → holds (Quoted text) input rest
  nil {relates : List Char → List Char → Prop} {rest : List Char} :
    (∀ rest, relates rest rest) → holds relates rest rest
  comp {first next : List Char → List Char → Prop} {input middle rest : List Char} :
    holds first input middle → holds next middle rest → holds (Relation.Comp first next) input rest
  mono {first next : List Char → List Char → Prop} {input rest : List Char} :
    holds first input rest → (∀ input rest, first input rest → next input rest) →
      holds next input rest

theorem IsName.ne_empty {name : String} (hname : IsName name) : name ≠ "" := by
  rintro rfl
  obtain ⟨head, tail, heq, -⟩ := hname.exists_eq_cons
  cases heq

namespace Tokenwise

variable {holds : (List Char → List Char → Prop) → List Char → List Char → Prop}
  {input rest : List Char}

theorem name (htokens : Tokenwise holds) {name : String} (hname : Name name input rest) :
    holds (Name name) input rest :=
  htokens.mono (htokens.loneWord hname.1.ne_empty hname.2) fun _ _ hword => ⟨hname.1, hword⟩

theorem expr (htokens : Tokenwise holds) {tier : Tier} {value : Expr}
    (hderives : Expr.Derives tier input value rest) :
    holds (Expr.Derives tier · value ·) input rest := by
  induction hderives with
  | ofSum _ ih => exact htokens.mono ih fun _ _ => .ofSum
  | ofProduct _ ih => exact htokens.mono ih fun _ _ => .ofProduct
  | ofNegation _ ih => exact htokens.mono ih fun _ _ => .ofNegation
  | ofOperand _ ih => exact htokens.mono ih fun _ _ => .ofOperand
  | @compare _ _ _ _ _ op _ _ hsymbol _ ihleft ihright =>
      refine htokens.mono
        (htokens.comp (htokens.comp ihleft (htokens.symbol op.symbol_mem hsymbol)) ihright) ?_
      rintro _ _ ⟨_, ⟨_, hleft, hsymbol⟩, hright⟩
      exact .compare hleft hsymbol hright
  | @add _ _ _ _ _ op _ hop _ hsymbol _ ihleft ihright =>
      refine htokens.mono
        (htokens.comp (htokens.comp ihleft (htokens.symbol op.symbol_mem hsymbol)) ihright) ?_
      rintro _ _ ⟨_, ⟨_, hleft, hsymbol⟩, hright⟩
      exact .add hop hleft hsymbol hright
  | @multiply _ _ _ _ _ op _ hop _ hsymbol _ ihleft ihright =>
      refine htokens.mono
        (htokens.comp (htokens.comp ihleft (htokens.symbol op.symbol_mem hsymbol)) ihright) ?_
      rintro _ _ ⟨_, ⟨_, hleft, hsymbol⟩, hright⟩
      exact .multiply hop hleft hsymbol hright
  | not hsymbol _ ih =>
      refine htokens.mono (htokens.comp (htokens.symbol (by decide) hsymbol) ih) ?_
      rintro _ _ ⟨_, hsymbol, hvalue⟩
      exact .not hsymbol hvalue
  | int hint => exact htokens.mono (htokens.integer hint) fun _ _ => .int
  | str hstr => exact htokens.mono (htokens.quoted hstr) fun _ _ => .str
  | @bool value _ _ hword =>
      exact htokens.mono (htokens.loneWord (by cases value <;> decide) hword) fun _ _ => .bool
  | ident hname => exact htokens.mono (htokens.name hname) fun _ _ => .ident
  | parens hopening _ hclosing ih =>
      refine htokens.mono (htokens.comp
        (htokens.comp (htokens.symbol (by decide) hopening) ih)
        (htokens.symbol (by decide) hclosing)) ?_
      rintro _ _ ⟨_, ⟨_, hopening, hinner⟩, hclosing⟩
      exact .parens hopening hinner hclosing

theorem guard (htokens : Tokenwise holds) {word : String} {condition : Expr}
    (hword : word ∈ symbols) (hguard : Guard word input condition rest) :
    holds (Guard word · condition ·) input rest := by
  obtain ⟨_, _, _, hsymbol, hopening, hcondition, hclosing⟩ := hguard
  refine htokens.mono (htokens.comp (htokens.comp (htokens.comp (htokens.symbol hword hsymbol)
    (htokens.symbol (by decide) hopening)) (htokens.expr hcondition))
    (htokens.symbol (by decide) hclosing)) ?_
  rintro _ _ ⟨_, ⟨_, ⟨_, hsymbol, hopening⟩, hcondition⟩, hclosing⟩
  exact ⟨_, _, _, hsymbol, hopening, hcondition, hclosing⟩

theorem braced_of (htokens : Tokenwise holds) {block : Block}
    (hblock : Block.Braced input block rest)
    (hinner : ∀ {start stop : List Char}, Block.Derives start block stop →
      holds (Block.Derives · block ·) start stop) :
    holds (Block.Braced · block ·) input rest := by
  cases hblock with
  | braces hopening hblock hclosing =>
      refine htokens.mono (htokens.comp
        (htokens.comp (htokens.symbol (by decide) hopening) (hinner hblock))
        (htokens.symbol (by decide) hclosing)) ?_
      rintro _ _ ⟨_, ⟨_, hopening, hblock⟩, hclosing⟩
      exact .braces hopening hblock hclosing

end Tokenwise

section Statements

variable {holds : (List Char → List Char → Prop) → List Char → List Char → Prop}

mutual

theorem Tokenwise.stmt (htokens : Tokenwise holds) {input rest : List Char} {stmt : Stmt}
    (hstmt : Stmt.Derives input stmt rest) : holds (Stmt.Derives · stmt ·) input rest := by
  -- The recursion is on the tree, as the blocks of a statement are parts of it.
  cases stmt with
  | assign name value =>
      cases hstmt with
      | assign hname hsign hvalue =>
          refine htokens.mono (htokens.comp (htokens.comp (htokens.name hname)
            (htokens.symbol (by decide) hsign)) (htokens.expr hvalue)) ?_
          rintro _ _ ⟨_, ⟨_, hname, hsign⟩, hvalue⟩
          exact .assign hname hsign hvalue
  | print value =>
      cases hstmt with
      | print hword hvalue =>
          refine htokens.mono
            (htokens.comp (htokens.loneWord (by decide) hword) (htokens.expr hvalue)) ?_
          rintro _ _ ⟨_, hword, hvalue⟩
          exact .print hword hvalue
  | branch condition yes no =>
      cases hstmt with
      | branch hword hopening hcondition hclosing hyes =>
          have hguard : Guard "if" _ condition _ := ⟨_, _, _, hword, hopening, hcondition, hclosing⟩
          refine htokens.mono (htokens.comp (htokens.guard (by decide) hguard)
            (htokens.braced_of hyes fun hall => htokens.block hall)) ?_
          rintro _ _ ⟨_, ⟨_, _, _, hword, hopening, hcondition, hclosing⟩, hyes⟩
          exact .branch hword hopening hcondition hclosing hyes
      | branchElse hword hopening hcondition hclosing hyes helse hno =>
          have hguard : Guard "if" _ condition _ := ⟨_, _, _, hword, hopening, hcondition, hclosing⟩
          refine htokens.mono (htokens.comp (htokens.comp (htokens.comp
            (htokens.guard (by decide) hguard)
            (htokens.braced_of hyes fun hall => htokens.block hall))
            (htokens.symbol (by decide) helse))
            (htokens.braced_of hno fun hall => htokens.block hall)) ?_
          rintro _ _ ⟨_, ⟨_, ⟨_, ⟨_, _, _, hword, hopening, hcondition, hclosing⟩, hyes⟩, helse⟩,
            hno⟩
          exact .branchElse hword hopening hcondition hclosing hyes helse hno
  | loop condition body =>
      cases hstmt with
      | loop hword hopening hcondition hclosing hbody =>
          have hguard : Guard "while" _ condition _ :=
            ⟨_, _, _, hword, hopening, hcondition, hclosing⟩
          refine htokens.mono (htokens.comp (htokens.guard (by decide) hguard)
            (htokens.braced_of hbody fun hall => htokens.block hall)) ?_
          rintro _ _ ⟨_, ⟨_, _, _, hword, hopening, hcondition, hclosing⟩, hbody⟩
          exact .loop hword hopening hcondition hclosing hbody
termination_by structural stmt

theorem Tokenwise.block (htokens : Tokenwise holds) {input rest : List Char} {block : Block}
    (hblock : Block.Derives input block rest) : holds (Block.Derives · block ·) input rest := by
  cases block with
  | nil =>
      cases hblock with
      | nil => exact htokens.nil fun _ => .nil
  | cons first others =>
      cases hblock with
      | cons hfirst hothers =>
          refine htokens.mono (htokens.comp (htokens.stmt hfirst) (htokens.block hothers)) ?_
          rintro _ _ ⟨_, hfirst, hothers⟩
          exact .cons hfirst hothers
termination_by structural block

end

theorem Tokenwise.braced (htokens : Tokenwise holds) {input rest : List Char} {block : Block}
    (hblock : Block.Braced input block rest) : holds (Block.Braced · block ·) input rest :=
  htokens.braced_of hblock htokens.block

end Statements

end PlZero
