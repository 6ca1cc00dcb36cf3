import PlZero.Expr.OfNode
import PlZero.Proofs.Expr.Tiers

/-! # Sums of products of factors

A chain can be grouped without climbing: it is cut at the operators of sums, every piece is folded
to the left over the operators of products, and the pieces are folded to the left over those of
sums. Climbing comes to the same grouping. To say that nothing gets lost or changes places, a
grouping tells the operands of the chain apart from what is built around them.
-/

namespace PlZero

/-- A chain with its operators put over its operands. An operand may be any expression. -/
inductive Grouping where
  | operand (value : Expr)
  | negation (inner : Grouping)
  | binary (left : Grouping) (op : ArithOp) (right : Grouping)

namespace Grouping

/-- The expression of a grouping. -/
def expr : Grouping → Expr
  | operand value => value
  | negation inner => .not inner.expr
  | binary left op right => .binary left.expr (.arith op) right.expr

/-- The operands and operators of a grouping, from left to right. -/
def items : Grouping → List ChainItem
  | operand value => [.operand value]
  | negation inner => .negation :: inner.items
  | binary left op right => left.items ++ .infixOp op :: right.items

end Grouping

/-- An operand below its own negations. -/
def Factor.grouping (factor : Factor) : Grouping :=
  Nat.repeat .negation factor.negations (.operand factor.operand)

/-- A product behind an operator of a sum: its first factor and the links behind that. -/
structure Summand where
  op : ArithOp
  first : Factor
  links : Links

namespace Links

theorem items_append (first next : Links) :
    items (first ++ next) = items first ++ items next :=
  List.flatMap_append

/-- Cuts links at the operators of sums: the links before the first one, and the products behind
each of them. -/
def cut : Links → Links × List Summand
  | [] => ([], [])
  | (op, factor) :: links =>
      if op ∈ [ArithOp.add, .sub] then ([], ⟨op, factor, (cut links).1⟩ :: (cut links).2)
      else ((op, factor) :: (cut links).1, (cut links).2)

/-- Some links and some summands are a cut of the links that they make up together. -/
structure IsCut (links product : Links) (summands : List Summand) : Prop where
  eq_append : links = product ++ summands.flatMap fun summand =>
    (summand.op, summand.first) :: summand.links
  product_ops : ∀ link ∈ product, link.1 ∈ [ArithOp.mul, .div, .rem]
  summand_ops : ∀ summand ∈ summands, summand.op ∈ [ArithOp.add, .sub] ∧
    ∀ link ∈ summand.links, link.1 ∈ [ArithOp.mul, .div, .rem]

theorem isCut_cut (links : Links) : IsCut links links.cut.1 links.cut.2 := by
  induction links with
  | nil => exact ⟨rfl, by simp [cut], by simp [cut]⟩
  | cons link links ih =>
      rcases link with ⟨op, factor⟩
      rw [cut]
      split
      next hop =>
        refine ⟨?_, by simp, ?_⟩
        · rw [List.flatMap_cons, List.nil_append, List.cons_append, ← ih.eq_append]
        · exact List.forall_mem_cons.mpr ⟨⟨hop, ih.product_ops⟩, ih.summand_ops⟩
      next hop =>
        refine ⟨by rw [List.cons_append, ← ih.eq_append], ?_, ih.summand_ops⟩
        refine List.forall_mem_cons.mpr ⟨?_, ih.product_ops⟩
        exact ArithOp.power_eq_two_iff.mp
          (op.power_eq_one_or_two.resolve_left (mt ArithOp.power_eq_one_iff.mp hop))

end Links

namespace Grouping

/-- Links folded to the left behind a grouping. -/
def foldLinks (left : Grouping) (links : Links) : Grouping :=
  links.foldl (fun left link => binary left link.1 link.2.grouping) left

/-- Products folded to the left behind a grouping. -/
def foldSummands (left : Grouping) (summands : List Summand) : Grouping :=
  summands.foldl
    (fun left summand => binary left summand.op (summand.first.grouping.foldLinks summand.links))
    left

/-- The grouping of a factor and links in two strata. -/
def stratified (first : Factor) (links : Links) : Grouping :=
  (first.grouping.foldLinks links.cut.1).foldSummands links.cut.2

/-! ## From left to right -/

theorem items_factor (factor : Factor) : factor.grouping.items = factor.items := by
  rcases factor with ⟨negations, operand⟩
  induction negations with
  | zero => rfl
  | succ negations ih => exact congrArg (ChainItem.negation :: ·) ih

theorem items_foldLinks (left : Grouping) (links : Links) :
    (left.foldLinks links).items = left.items ++ Links.items links := by
  induction links generalizing left with
  | nil => simp [foldLinks]
  | cons link links ih =>
      rcases link with ⟨op, factor⟩
      rw [foldLinks, List.foldl_cons]
      refine (ih _).trans ?_
      rw [items, items_factor, Links.items_cons, List.append_assoc, List.cons_append]

theorem items_foldSummands (left : Grouping) (summands : List Summand) :
    (left.foldSummands summands).items =
      left.items ++ Links.items (summands.flatMap fun summand =>
        (summand.op, summand.first) :: summand.links) := by
  induction summands generalizing left with
  | nil => simp [foldSummands]
  | cons summand summands ih =>
      rw [foldSummands, List.foldl_cons]
      refine (ih _).trans ?_
      rw [items, items_foldLinks, items_factor, List.flatMap_cons, List.cons_append,
        Links.items_cons]
      simp [Links.items]

/-- The strata keep every operand and operator in its place. -/
theorem items_stratified (first : Factor) (links : Links) :
    (stratified first links).items = first.items ++ Links.items links := by
  rw [stratified, items_foldSummands, items_foldLinks, items_factor, List.append_assoc,
    ← Links.items_append, ← (Links.isCut_cut links).eq_append]

/-! ## The tree -/

theorem expr_factor (factor : Factor) : factor.grouping.expr = factor.tree := by
  rcases factor with ⟨negations, operand⟩
  induction negations with
  | zero => rfl
  | succ negations ih => exact congrArg Expr.not ih

/-- Reading links one by one, with the finished sum and the growing product in hand, builds the
strata behind them. -/
theorem close_run_eq (finished : Option (Grouping × ArithOp)) (product : Grouping)
    (links : Links) :
    (Reckoning.run ⟨finished.map fun (sum, op) => (sum.expr, op), product.expr⟩ links).close =
      (foldSummands
        (finished.elim (product.foldLinks links.cut.1) fun (sum, op) =>
          binary sum op (product.foldLinks links.cut.1)) links.cut.2).expr := by
  induction links generalizing finished product with
  | nil => rcases finished with _ | ⟨sum, op⟩ <;> rfl
  | cons link links ih =>
      rcases link with ⟨op, factor⟩
      rw [Reckoning.run, List.foldl_cons, Reckoning.push, Links.cut]
      by_cases hop : op ∈ [ArithOp.add, .sub]
      · rw [if_pos hop, if_pos (ArithOp.power_eq_one_iff.mpr hop)]
        have hstep := ih (some (finished.elim product fun (sum, op) => binary sum op product, op))
          factor.grouping
        rw [expr_factor] at hstep
        rcases finished with _ | ⟨sum, last⟩ <;> exact hstep
      · rw [if_neg hop, if_neg (mt ArithOp.power_eq_one_iff.mp hop)]
        have hstep := ih finished (binary product op factor.grouping)
        rw [expr, expr_factor] at hstep
        exact hstep

theorem expr_stratified (first : Factor) (links : Links) :
    (stratified first links).expr = tierTree first links := by
  rw [tierTree, Reckoning.start, ← expr_factor]
  exact (close_run_eq none first.grouping links).symm

end Grouping

namespace Chain

/-- The tree of a chain is grouped in two strata: the chain is cut at the operators of sums, every
product is folded to the left, and so is their sum, with every operand below its own negations.
From left to right the tree has the operands and operators of the chain. -/
theorem builds_strata (first : Factor) (links : Links) :
    Links.IsCut links links.cut.1 links.cut.2 ∧
      (Grouping.stratified first links).items = first.items ++ Links.items links ∧
      tree? (first.items ++ Links.items links) = some (Grouping.stratified first links).expr ∧
      ∀ offset text children,
        Expr.ofItems children = .ok (first.items ++ Links.items links) →
        Expr.ofChain ⟨.chain, offset, text, children⟩ =
          .ok (Grouping.stratified first links).expr := by
  have htree : tree? (first.items ++ Links.items links) =
      some (Grouping.stratified first links).expr := by
    rw [tree?_items, Grouping.expr_stratified]
  refine ⟨Links.isCut_cut links, Grouping.items_stratified first links, htree, ?_⟩
  intro offset text children hitems
  rw [Expr.ofChain, hitems]
  simp only [bind, Except.bind, htree]

/-- The chain of `!!a*2-7%!b`. -/
theorem builds_strata_mixed :
    let first : Factor := ⟨2, .ident "a"⟩
    let links : Links := [(.mul, ⟨0, .int 2⟩), (.sub, ⟨0, .int 7⟩), (.rem, ⟨1, .ident "b"⟩)]
    let children : List (Peg.Node Rule) :=
      [⟨.negation, 0, ['!'], []⟩, ⟨.negation, 1, ['!'], []⟩, ⟨.ident, 2, ['a'], []⟩,
        ⟨.arith .mul, 3, ['*'], []⟩, ⟨.int, 4, ['2'], []⟩, ⟨.arith .sub, 5, ['-'], []⟩,
        ⟨.int, 6, ['7'], []⟩, ⟨.arith .rem, 7, ['%'], []⟩, ⟨.negation, 8, ['!'], []⟩,
        ⟨.ident, 9, ['b'], []⟩]
    Expr.ofItems children = .ok (first.items ++ Links.items links) ∧
      Expr.ofChain ⟨.chain, 0, "!!a*2-7%!b".toList, children⟩ =
        .ok (.binary (.binary (.not (.not (.ident "a"))) (.arith .mul) (.int 2)) (.arith .sub)
          (.binary (.int 7) (.arith .rem) (.not (.ident "b")))) := by
  intro first links children
  have hitems : Expr.ofItems children = .ok (first.items ++ Links.items links) := rfl
  exact ⟨hitems, (builds_strata first links).2.2.2 0 _ children hitems⟩

end Chain

end PlZero
