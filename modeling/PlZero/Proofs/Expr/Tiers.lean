import PlZero.Proofs.Expr.Climbing
import PlZero.Proofs.Grammar.Runs

/-! # Left recursion as repetition

The tiers of the grammar are left recursive, and a text is read from its left end. A phrase of a
sum is a factor and links, one after another, with the tree of the tiers; a phrase of a comparison
is a sum and further comparisons that group to the left.
-/

namespace PlZero

namespace Expr

/-- The characters that arithmetic operators start with. -/
def arithSigns : List Char := ['+', '-', '*', '/', '%']

/-- The characters that operators start with. -/
def operatorSigns : List Char := arithSigns ++ ['<', '>', '=']

end Expr

namespace Expr.Derives

variable {tier : Tier} {before input rest : List Char} {value : Expr}

/-- Every phrase may have blanks before it. -/
theorem of_skips (hskips : Skips before input) (hderives : Derives tier input value rest) :
    Derives tier before value rest := by
  induction hderives with
  | ofSum _ ih => exact .ofSum (ih hskips)
  | compare _ hsymbol hright ih _ => exact .compare (ih hskips) hsymbol hright
  | ofProduct _ ih => exact .ofProduct (ih hskips)
  | add hop _ hsymbol hright ih _ => exact .add hop (ih hskips) hsymbol hright
  | ofNegation _ ih => exact .ofNegation (ih hskips)
  | multiply hop _ hsymbol hright ih _ => exact .multiply hop (ih hskips) hsymbol hright
  | ofOperand _ ih => exact .ofOperand (ih hskips)
  | not hsymbol hvalue _ => exact .not (hsymbol.of_skips hskips) hvalue
  | int hint =>
      obtain ⟨start, digits, hstart, hdigits⟩ := hint
      exact .int ⟨start, digits, hskips.trans hstart, hdigits⟩
  | str hstr => exact .str ⟨hstr.1, hskips.trans hstr.2⟩
  | bool hword => exact .bool (hword.of_skips hskips)
  | ident hname => exact .ident ⟨hname.1, hname.2.of_skips hskips⟩
  | parens hopening hinner hclosing _ => exact .parens (hopening.of_skips hskips) hinner hclosing

end Expr.Derives

theorem ArithOp.power_eq_one_iff {op : ArithOp} :
    op.power = 1 ↔ op ∈ [ArithOp.add, .sub] := by
  cases op <;> decide

theorem ArithOp.power_eq_two_iff {op : ArithOp} :
    op.power = 2 ↔ op ∈ [ArithOp.mul, .div, .rem] := by
  cases op <;> decide

/-! ## Factors and links -/

/-- The phrases of factors. -/
inductive Factor.Derives : List Char → Factor → List Char → Prop where
  | operand {input value rest} :
      Expr.Derives .operand input value rest → Factor.Derives input ⟨0, value⟩ rest
  | negation {input next count value rest} :
      Symbol "!" input next → Factor.Derives next ⟨count, value⟩ rest →
      Factor.Derives input ⟨count + 1, value⟩ rest

theorem Factor.Derives.of_skips {before input rest : List Char} {factor : Factor}
    (hskips : Skips before input) (hfactor : Factor.Derives input factor rest) :
    Factor.Derives before factor rest := by
  cases hfactor with
  | operand hvalue => exact .operand (hvalue.of_skips hskips)
  | negation hsymbol hfactor => exact .negation (hsymbol.of_skips hskips) hfactor

/-- The phrases of links. -/
inductive Links.Derives : List Char → Links → List Char → Prop where
  | nil {rest} : Links.Derives rest [] rest
  | cons {input op middle factor next links rest} :
      Symbol (ArithOp.symbol op) input middle → Factor.Derives middle factor next →
      Links.Derives next links rest → Links.Derives input ((op, factor) :: links) rest

theorem Links.Derives.append {input middle rest : List Char} {first next : Links}
    (hfirst : Links.Derives input first middle) (hnext : Links.Derives middle next rest) :
    Links.Derives input (first ++ next) rest := by
  induction hfirst with
  | nil => exact hnext
  | cons hsymbol hfactor _ ih => exact .cons hsymbol hfactor (ih hnext)

/-- Links behind some blanks, of which none are skipped if there are no links. -/
theorem Links.Derives.exists_of_skips {before input rest : List Char} {links : Links}
    (hskips : Skips before input) (hlinks : Links.Derives input links rest) :
    ∃ stop, Links.Derives before links stop ∧ Skips stop rest := by
  cases hlinks with
  | nil => exact ⟨before, .nil, hskips⟩
  | cons hsymbol hfactor hlinks =>
      exact ⟨rest, .cons (hsymbol.of_skips hskips) hfactor hlinks, .refl _⟩

theorem Factor.Derives.derives_negation {input rest : List Char} {factor : Factor}
    (hfactor : Factor.Derives input factor rest) :
    Expr.Derives .negation input factor.tree rest := by
  induction hfactor with
  | operand hvalue => exact .ofOperand hvalue
  | negation hsymbol _ ih => exact .not hsymbol ih

theorem exists_factor_of_derives {input rest : List Char} {value : Expr}
    (hderives : Expr.Derives .negation input value rest) :
    ∃ factor, Factor.Derives input factor rest ∧ value = factor.tree := by
  generalize htier : Tier.negation = tier at hderives
  induction hderives with
  | ofOperand hvalue _ => exact ⟨⟨0, _⟩, .operand hvalue, rfl⟩
  | not hsymbol _ ih =>
      obtain ⟨⟨count, value⟩, hfactor, rfl⟩ := ih rfl
      exact ⟨⟨count + 1, value⟩, .negation hsymbol hfactor, rfl⟩
  | _ => cases htier

namespace Reckoning

theorem run_append (reckoning : Reckoning) (first next : Links) :
    reckoning.run (first ++ next) = (reckoning.run first).run next :=
  List.foldl_append

/-- Operators of a product only grow the product. -/
theorem run_product {links : Links} (hpower : ∀ link ∈ links, link.1.power = 2)
    (sum? : Option (Expr × ArithOp)) (product : Expr) :
    Reckoning.run ⟨sum?, product⟩ links = ⟨sum?, ((start product).run links).close⟩ := by
  induction links generalizing sum? product with
  | nil => rfl
  | cons link links ih =>
      rcases link with ⟨op, factor⟩
      have hop : op.power = 2 := hpower _ List.mem_cons_self
      have hlinks := fun link hlink => hpower link (List.mem_cons_of_mem _ hlink)
      have hpush : ∀ sum?, (Reckoning.mk sum? product).push (op, factor) =
          ⟨sum?, .binary product (.arith op) factor.tree⟩ := by
        intro sum?
        rw [push, hop]
        rfl
      simp only [run, start, List.foldl_cons, hpush] at ih ⊢
      exact ih hlinks sum? _

/-- A last operator of a product takes the whole product on its left. -/
theorem tierTree_concat {first factor : Factor} {links : Links} {op : ArithOp}
    (hpower : ∀ link ∈ links, link.1.power = 2) (hop : op.power = 2) :
    tierTree first (links ++ [(op, factor)]) =
      .binary (tierTree first links) (.arith op) factor.tree := by
  rw [tierTree, run_append, start, run_product hpower]
  simp only [run, List.foldl_cons, List.foldl_nil, push, hop]
  rfl

/-- An operator of a sum takes the sum on its left and the product on its right. -/
theorem tierTree_append {first next : Factor} {links others : Links} {op : ArithOp}
    (hop : op.power = 1) (hpower : ∀ link ∈ others, link.1.power = 2) :
    tierTree first (links ++ (op, next) :: others) =
      .binary (tierTree first links) (.arith op) (tierTree next others) := by
  have hpush : ((start first.tree).run links).push (op, next) =
      ⟨some (tierTree first links, op), next.tree⟩ := by
    rw [push, if_pos hop]
    rfl
  rw [tierTree, run_append]
  change (run (push _ (op, next)) others).close = _
  rw [hpush, run_product hpower]
  rfl

/-- What a reckoning says about the text it has read. -/
def Derives (input : List Char) : Reckoning → List Char → Prop
  | ⟨none, product⟩, rest => Expr.Derives .product input product rest
  | ⟨some (sum, op), product⟩, rest => op ∈ [ArithOp.add, .sub] ∧
      ∃ middle next, Expr.Derives .sum input sum middle ∧ Symbol op.symbol middle next ∧
        Expr.Derives .product next product rest

namespace Derives

variable {input middle rest : List Char} {reckoning : Reckoning}

theorem close (hderives : Derives input reckoning rest) :
    Expr.Derives .sum input reckoning.close rest := by
  rcases reckoning with ⟨_ | ⟨sum, op⟩, product⟩
  · exact .ofProduct hderives
  · obtain ⟨hop, middle, next, hsum, hsymbol, hproduct⟩ := hderives
    exact .add hop hsum hsymbol hproduct

theorem push {op : ArithOp} {next : List Char} {factor : Factor}
    (hderives : Derives input reckoning middle) (hsymbol : Symbol op.symbol middle next)
    (hfactor : Factor.Derives next factor rest) :
    Derives input (reckoning.push (op, factor)) rest := by
  have hnegation := hfactor.derives_negation
  rw [Reckoning.push]
  split
  next hpower =>
    exact ⟨ArithOp.power_eq_one_iff.mp hpower, middle, next, hderives.close, hsymbol,
      .ofNegation hnegation⟩
  next hpower =>
    have hop := ArithOp.power_eq_two_iff.mp (op.power_eq_one_or_two.resolve_left hpower)
    rcases reckoning with ⟨_ | ⟨sum, sign⟩, product⟩
    · exact .multiply hop hderives hsymbol hnegation
    · obtain ⟨hsign, start, after, hsum, hsign', hproduct⟩ := hderives
      exact ⟨hsign, start, after, hsum, hsign', .multiply hop hproduct hsymbol hnegation⟩

theorem run {links : Links} (hderives : Derives input reckoning middle)
    (hlinks : Links.Derives middle links rest) : Derives input (reckoning.run links) rest := by
  induction hlinks generalizing reckoning with
  | nil => exact hderives
  | cons hsymbol hfactor _ ih => exact ih (hderives.push hsymbol hfactor)

end Derives

end Reckoning

theorem exists_links_of_derives_product {input rest : List Char} {value : Expr}
    (hderives : Expr.Derives .product input value rest) :
    ∃ first links middle, Factor.Derives input first middle ∧ Links.Derives middle links rest ∧
      (∀ link ∈ links, link.1.power = 2) ∧ value = tierTree first links := by
  generalize htier : Tier.product = tier at hderives
  induction hderives with
  | ofNegation hvalue _ =>
      obtain ⟨factor, hfactor, rfl⟩ := exists_factor_of_derives hvalue
      exact ⟨factor, [], _, hfactor, .nil, by simp, rfl⟩
  | @multiply _ _ _ _ _ op _ hop _ hsymbol hright ih _ =>
      obtain ⟨first, links, middle, hfirst, hlinks, hpower, rfl⟩ := ih rfl
      obtain ⟨factor, hfactor, rfl⟩ := exists_factor_of_derives hright
      have hop' := ArithOp.power_eq_two_iff.mpr hop
      refine ⟨first, links ++ [(op, factor)], middle, hfirst,
        hlinks.append (.cons hsymbol hfactor .nil), ?_,
        (Reckoning.tierTree_concat hpower hop').symm⟩
      simpa [or_imp, forall_and, hop'] using hpower
  | _ => cases htier

/-- A phrase of a sum is a factor and links, with the tree of the tiers. -/
theorem derives_sum_iff {input rest : List Char} {value : Expr} :
    Expr.Derives .sum input value rest ↔
      ∃ first links middle, Factor.Derives input first middle ∧
        Links.Derives middle links rest ∧ value = tierTree first links := by
  constructor
  · intro hderives
    generalize htier : Tier.sum = tier at hderives
    induction hderives with
    | ofProduct hvalue _ =>
        obtain ⟨first, links, middle, hfirst, hlinks, -, rfl⟩ :=
          exists_links_of_derives_product hvalue
        exact ⟨first, links, middle, hfirst, hlinks, rfl⟩
    | @add _ _ _ _ _ op _ hop _ hsymbol hright ih _ =>
        obtain ⟨first, links, middle, hfirst, hlinks, rfl⟩ := ih rfl
        obtain ⟨next, others, after, hnext, hothers, hpower, rfl⟩ :=
          exists_links_of_derives_product hright
        exact ⟨first, links ++ (op, next) :: others, middle, hfirst,
          hlinks.append (.cons hsymbol hnext hothers),
          (Reckoning.tierTree_append (ArithOp.power_eq_one_iff.mpr hop) hpower).symm⟩
    | _ => cases htier
  · rintro ⟨first, links, middle, hfirst, hlinks, rfl⟩
    have hstart : (Reckoning.start first.tree).Derives input middle :=
      .ofNegation hfirst.derives_negation
    exact (hstart.run hlinks).close

/-! ## Comparisons -/

/-- Comparisons with the sums behind them. -/
abbrev Comparisons := List (CompareOp × Expr)

/-- The phrases of further comparisons. -/
inductive Comparisons.Derives : List Char → Comparisons → List Char → Prop where
  | nil {rest} : Comparisons.Derives rest [] rest
  | cons {input op middle value next others rest} :
      Symbol (CompareOp.symbol op) input middle → Expr.Derives .sum middle value next →
      Comparisons.Derives next others rest →
      Comparisons.Derives input ((op, value) :: others) rest

theorem Comparisons.Derives.concat {input middle next rest : List Char} {others : Comparisons}
    {op : CompareOp} {value : Expr} (hothers : Comparisons.Derives input others middle)
    (hsymbol : Symbol op.symbol middle next) (hvalue : Expr.Derives .sum next value rest) :
    Comparisons.Derives input (others ++ [(op, value)]) rest := by
  induction hothers with
  | nil => exact .cons hsymbol hvalue .nil
  | cons hfirst hsum _ ih => exact .cons hfirst hsum (ih hsymbol)

/-- The tree of comparisons behind a first sum: they group to the left. -/
def compareTree (first : Expr) (others : Comparisons) : Expr :=
  others.foldl (fun left (op, right) => .binary left (.compare op) right) first

theorem exists_comparisons_of_derives {input rest : List Char} {value : Expr}
    (hderives : Expr.Derives .comparison input value rest) :
    ∃ first others middle, Expr.Derives .sum input first middle ∧
      Comparisons.Derives middle others rest ∧ value = compareTree first others := by
  generalize htier : Tier.comparison = tier at hderives
  induction hderives with
  | ofSum hvalue _ => exact ⟨_, [], _, hvalue, .nil, rfl⟩
  | @compare _ _ _ _ _ op _ _ hsymbol hright ih _ =>
      obtain ⟨first, others, middle, hfirst, hothers, rfl⟩ := ih rfl
      refine ⟨first, others ++ [(op, _)], middle, hfirst, hothers.concat hsymbol hright, ?_⟩
      simp [compareTree]
  | _ => cases htier

end PlZero
