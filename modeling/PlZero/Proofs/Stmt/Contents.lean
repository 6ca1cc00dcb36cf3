import PlZero.Proofs.Stmt.Parts
import PlZero.Proofs.Stmt.Phrases
import PlZero.Proofs.Text.Literals

/-! # Contents of phrases

The strings in the tree of a phrase are the literals of its text, from left to right: nothing but
a string has quotes. And the statements inside a phrase are phrases themselves.
-/

namespace PlZero

open Text (literals literals_append_of_not_mem literals_quoted)

/-- The strings among some expressions. -/
def stringsOf (exprs : List Expr) : List (List Char) :=
  exprs.filterMap fun
    | .str text => some text.toList
    | _ => none

theorem stringsOf_append (first next : List Expr) :
    stringsOf (first ++ next) = stringsOf first ++ stringsOf next :=
  List.filterMap_append

theorem mem_stringsOf {exprs : List Expr} {text : String} (htext : .str text ∈ exprs) :
    text.toList ∈ stringsOf exprs :=
  List.mem_filterMap.mpr ⟨_, htext, rfl⟩

/-! ## Tokens -/

theorem Skips.literals_eq {input rest : List Char} (hskips : Skips input rest) :
    literals input = literals rest := by
  obtain ⟨blanks, hblanks, rfl⟩ := hskips
  exact literals_append_of_not_mem (quote_not_mem_of_isBlank hblanks) rest

theorem Symbol.literals_eq {text : String} {input rest : List Char}
    (hsymbol : Symbol text input rest) (hquote : '"' ∉ text.toList) :
    literals input = literals rest := by
  rw [Skips.literals_eq hsymbol, literals_append_of_not_mem hquote]

theorem WholeRun.literals_eq {accepts : Char → Bool} {input run rest : List Char}
    (hrun : WholeRun accepts input run rest) (hquote : accepts '"' = false) :
    literals input = literals rest := by
  rw [hrun.eq_append, literals_append_of_not_mem]
  intro hmem
  rw [hrun.accepts_run _ hmem] at hquote
  cases hquote

theorem LoneWord.literals_eq {word : String} {input rest : List Char}
    (hword : LoneWord word input rest) : literals input = literals rest := by
  obtain ⟨start, hskips, hrun⟩ := hword
  rw [hskips.literals_eq, hrun.literals_eq (by decide)]

theorem Integer.literals_eq {value : Int64} {input rest : List Char}
    (hint : Integer value input rest) : literals input = literals rest := by
  obtain ⟨start, digits, hskips, hrun, -⟩ := hint
  rw [hskips.literals_eq, hrun.literals_eq (by decide)]

theorem Quoted.literals_eq {text : String} {input rest : List Char}
    (hquoted : Quoted text input rest) : literals input = text.toList :: literals rest := by
  rw [hquoted.2.literals_eq, literals_quoted hquoted.1]

/-! ## Phrases -/

theorem Expr.Derives.literals_eq {tier : Tier} {input rest : List Char} {value : Expr}
    (hderives : Derives tier input value rest) :
    literals input = stringsOf value.parts ++ literals rest := by
  induction hderives with
  | ofSum _ ih | ofProduct _ ih | ofNegation _ ih | ofOperand _ ih => exact ih
  | @compare _ _ _ _ _ op _ _ hsymbol _ ihleft ihright
  | @add _ _ _ _ _ op _ _ _ hsymbol _ ihleft ihright
  | @multiply _ _ _ _ _ op _ _ _ hsymbol _ ihleft ihright =>
      have hsign := hsymbol.literals_eq (by cases op <;> decide)
      rw [ihleft, hsign, ihright, parts, ← List.append_assoc, ← stringsOf_append]
      rfl
  | not hsymbol _ ih =>
      rw [hsymbol.literals_eq (by decide), ih]
      rfl
  | parens hopening _ hclosing ih =>
      rw [hopening.literals_eq (by decide), ih, hclosing.literals_eq (by decide)]
  | int hint => exact hint.literals_eq
  | str hstr => exact hstr.literals_eq
  | bool hword => exact hword.literals_eq
  | ident hname => exact hname.2.literals_eq

theorem Guard.literals_eq {word : String} {input rest : List Char} {condition : Expr}
    (hguard : Guard word input condition rest) (hquote : '"' ∉ word.toList) :
    literals input = stringsOf condition.parts ++ literals rest := by
  obtain ⟨_, _, _, hword, hopening, hcondition, hclosing⟩ := hguard
  rw [hword.literals_eq hquote, hopening.literals_eq (by decide), hcondition.literals_eq,
    hclosing.literals_eq (by decide)]

theorem Block.Braced.literals_eq {input rest : List Char} {block : Block}
    (hblock : Block.Braced input block rest)
    (hliterals : ∀ {start stop : List Char}, Block.Derives start block stop →
      literals start = stringsOf block.exprs ++ literals stop) :
    literals input = stringsOf block.exprs ++ literals rest := by
  cases hblock with
  | braces hopening hinner hclosing =>
      rw [hopening.literals_eq (by decide), hliterals hinner, hclosing.literals_eq (by decide)]

mutual

theorem Stmt.Derives.literals_eq {input rest : List Char} {stmt : Stmt}
    (hstmt : Stmt.Derives input stmt rest) :
    literals input = stringsOf stmt.exprs ++ literals rest := by
  cases stmt with
  | assign name value =>
      cases hstmt with
      | assign hname hsign hvalue =>
          rw [hname.2.literals_eq, hsign.literals_eq (by decide), hvalue.literals_eq]
          simp [Stmt.exprs, Stmt.parts, Stmt.subject]
  | print value =>
      cases hstmt with
      | print hword hvalue =>
          rw [hword.literals_eq, hvalue.literals_eq]
          simp [Stmt.exprs, Stmt.parts, Stmt.subject]
  | branch condition yes no =>
      rw [Stmt.exprs_branch, stringsOf_append, stringsOf_append, List.append_assoc,
        List.append_assoc]
      cases hstmt with
      | branch hword hopening hcondition hclosing hyes =>
          have hguard : Guard "if" _ condition _ :=
            ⟨_, _, _, hword, hopening, hcondition, hclosing⟩
          rw [hguard.literals_eq (by decide),
            hyes.literals_eq fun hall => Block.Derives.literals_eq hall]
          rfl
      | branchElse hword hopening hcondition hclosing hyes helse hno =>
          have hguard : Guard "if" _ condition _ :=
            ⟨_, _, _, hword, hopening, hcondition, hclosing⟩
          rw [hguard.literals_eq (by decide),
            hyes.literals_eq fun hall => Block.Derives.literals_eq hall,
            helse.literals_eq (by decide),
            hno.literals_eq fun hall => Block.Derives.literals_eq hall]
  | loop condition body =>
      rw [Stmt.exprs_loop, stringsOf_append, List.append_assoc]
      cases hstmt with
      | loop hword hopening hcondition hclosing hbody =>
          have hguard : Guard "while" _ condition _ :=
            ⟨_, _, _, hword, hopening, hcondition, hclosing⟩
          rw [hguard.literals_eq (by decide),
            hbody.literals_eq fun hall => Block.Derives.literals_eq hall]
termination_by structural stmt

theorem Block.Derives.literals_eq {input rest : List Char} {block : Block}
    (hblock : Block.Derives input block rest) :
    literals input = stringsOf block.exprs ++ literals rest := by
  cases block with
  | nil =>
      cases hblock with
      | nil => rfl
  | cons first others =>
      cases hblock with
      | cons hfirst hothers =>
          rw [Block.exprs_cons, stringsOf_append, List.append_assoc, hfirst.literals_eq,
            Block.Derives.literals_eq hothers]
termination_by structural block

end

theorem DerivesAll.literals_eq {Tree : Type} {derives : List Char → Tree → List Char → Prop}
    {exprs : List Expr} {source : String} {tree : Tree}
    (hderives : DerivesAll derives source tree)
    (hliterals : ∀ {input rest : List Char}, derives input tree rest →
      literals input = stringsOf exprs ++ literals rest) :
    literals source.toList = stringsOf exprs := by
  obtain ⟨rest, hderives, hrest⟩ := hderives
  rw [hliterals hderives, hrest.literals_eq]
  exact List.append_nil _

/-! ## Statements inside -/

theorem Block.Braced.exists_derives {input rest : List Char} {block : Block}
    (hblock : Block.Braced input block rest) : ∃ start stop, Block.Derives start block stop := by
  cases hblock with
  | braces _ hinner _ => exact ⟨_, _, hinner⟩

mutual

theorem Stmt.Derives.exists_of_mem_parts {input rest : List Char} {stmt part : Stmt}
    (hstmt : Stmt.Derives input stmt rest) (hpart : part ∈ stmt.parts) :
    ∃ start stop, Stmt.Derives start part stop := by
  cases stmt with
  | assign name value =>
      obtain rfl := List.mem_singleton.mp hpart
      exact ⟨_, _, hstmt⟩
  | print value =>
      obtain rfl := List.mem_singleton.mp hpart
      exact ⟨_, _, hstmt⟩
  | branch condition yes no =>
      rw [Stmt.parts] at hpart
      rcases List.mem_cons.mp hpart with rfl | hpart
      · exact ⟨_, _, hstmt⟩
      · cases hstmt with
        | branch _ _ _ _ hyes =>
            obtain ⟨_, _, hyes⟩ := hyes.exists_derives
            rw [Block.parts, List.append_nil] at hpart
            exact Block.Derives.exists_of_mem_parts hyes hpart
        | branchElse _ _ _ _ hyes _ hno =>
            obtain ⟨_, _, hyes⟩ := hyes.exists_derives
            obtain ⟨_, _, hno⟩ := hno.exists_derives
            rcases List.mem_append.mp hpart with hpart | hpart
            · exact Block.Derives.exists_of_mem_parts hyes hpart
            · exact Block.Derives.exists_of_mem_parts hno hpart
  | loop condition body =>
      rw [Stmt.parts] at hpart
      rcases List.mem_cons.mp hpart with rfl | hpart
      · exact ⟨_, _, hstmt⟩
      · cases hstmt with
        | loop _ _ _ _ hbody =>
            obtain ⟨_, _, hbody⟩ := hbody.exists_derives
            exact Block.Derives.exists_of_mem_parts hbody hpart
termination_by structural stmt

/-- The parts of a phrase are phrases. -/
theorem Block.Derives.exists_of_mem_parts {input rest : List Char} {block : Block} {part : Stmt}
    (hblock : Block.Derives input block rest) (hpart : part ∈ block.parts) :
    ∃ start stop, Stmt.Derives start part stop := by
  cases block with
  | nil => cases hpart
  | cons first others =>
      rw [Block.parts] at hpart
      cases hblock with
      | cons hfirst hothers =>
          rcases List.mem_append.mp hpart with hpart | hpart
          · exact Stmt.Derives.exists_of_mem_parts hfirst hpart
          · exact Block.Derives.exists_of_mem_parts hothers hpart
termination_by structural block

end

theorem Block.Derives.isName {input rest : List Char} {block : Block} {name : String}
    (hblock : Block.Derives input block rest) (hassigns : block.Assigns name) : IsName name := by
  obtain ⟨value, hpart⟩ := hassigns
  obtain ⟨_, _, hstmt⟩ := hblock.exists_of_mem_parts hpart
  cases hstmt with
  | assign hname => exact hname.1

end PlZero
