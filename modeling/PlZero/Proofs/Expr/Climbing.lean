import PlZero.Expr.Chain

/-! # Precedence climbing and tiers

A chain is a first factor and then operators with further factors. Climbing gives the tree that a
single pass from left to right builds with two tiers in hand: the sum of the products that are
finished, and the product that still grows. What ties both together is where climbing above the
power of a sum stops: in front of the next operator of a sum.
-/

namespace PlZero

/-- An operand behind negations. -/
structure Factor where
  negations : Nat
  operand : Expr

namespace Factor

/-- The items of a factor, as they stand in a chain. -/
def items (factor : Factor) : List ChainItem :=
  List.replicate factor.negations .negation ++ [.operand factor.operand]

/-- Wraps an expression in negations. -/
def negate : Nat → Expr → Expr
  | 0, value => value
  | count + 1, value => .not (negate count value)

/-- The tree of a factor. -/
def tree (factor : Factor) : Expr := negate factor.negations factor.operand

end Factor

/-- Operators with the factors behind them. -/
abbrev Links := List (ArithOp × Factor)

/-- The items of some links, as they stand in a chain. -/
def Links.items (links : Links) : List ChainItem :=
  links.flatMap fun (op, factor) => .infixOp op :: factor.items

@[simp]
theorem Links.items_nil : Links.items [] = [] := rfl

@[simp]
theorem Links.items_cons (op : ArithOp) (factor : Factor) (links : Links) :
    Links.items ((op, factor) :: links) = .infixOp op :: (factor.items ++ Links.items links) := by
  simp [Links.items]

/-- A chain that is being read: the sum of the finished products with the operator behind it, and
the product that still grows. -/
structure Reckoning where
  sum? : Option (Expr × ArithOp)
  product : Expr

namespace Reckoning

/-- Nothing but a first factor was read. -/
def start (first : Expr) : Reckoning := ⟨none, first⟩

/-- The tree of everything read. -/
def close : Reckoning → Expr
  | ⟨none, product⟩ => product
  | ⟨some (sum, op), product⟩ => .binary sum (.arith op) product

/-- Reads an operator and a factor. An operator of a sum finishes the product before it. -/
def push (reckoning : Reckoning) : ArithOp × Factor → Reckoning
  | (op, factor) =>
      if op.power = 1 then ⟨some (reckoning.close, op), factor.tree⟩
      else { reckoning with product := .binary reckoning.product (.arith op) factor.tree }

/-- Reads operators and factors from left to right. -/
def run (reckoning : Reckoning) (links : Links) : Reckoning := links.foldl push reckoning

end Reckoning

/-- The tree of a chain: products below sums, both grouped to the left. -/
def tierTree (first : Factor) (links : Links) : Expr :=
  ((Reckoning.start first.tree).run links).close

theorem ArithOp.power_eq_one_or_two (op : ArithOp) : op.power = 1 ∨ op.power = 2 := by
  cases op <;> decide

/-- The product at the start of some links, grouped to the left, and the links behind it. -/
def leadingProduct (left : Expr) : Links → Expr × Links
  | [] => (left, [])
  | (op, factor) :: links =>
      if op.power = 1 then (left, (op, factor) :: links)
      else leadingProduct (.binary left (.arith op) factor.tree) links

theorem leadingProduct_length_le (left : Expr) (links : Links) :
    (leadingProduct left links).2.length ≤ links.length := by
  induction links generalizing left with
  | nil => exact Nat.le_refl _
  | cons link links ih =>
      rw [leadingProduct]
      split
      · exact Nat.le_refl _
      · exact Nat.le_trans (ih _) (Nat.le_succ _)

theorem leadingProduct_items_length_le (left : Expr) (links : Links) :
    (Links.items (leadingProduct left links).2).length ≤ (Links.items links).length := by
  induction links generalizing left with
  | nil => exact Nat.le_refl _
  | cons link links ih =>
      rw [leadingProduct]
      split
      · exact Nat.le_refl _
      · refine Nat.le_trans (ih _) ?_
        rw [Links.items_cons, List.length_cons, List.length_append]
        omega

/-- Finishing the product first and reading it link by link come to the same. -/
theorem close_run_leadingProduct (sum : Expr) (op : ArithOp) (product : Expr) (links : Links) :
    ((Reckoning.mk (some (sum, op)) product).run links).close =
      ((Reckoning.start (.binary sum (.arith op) (leadingProduct product links).1)).run
        (leadingProduct product links).2).close := by
  induction links generalizing product with
  | nil => rfl
  | cons link links ih =>
      rcases link with ⟨next, factor⟩
      rw [leadingProduct]
      split
      next hpower =>
        simp only [Reckoning.run, List.foldl_cons, Reckoning.push, hpower, if_true]
        rfl
      next hpower =>
        rw [← ih]
        simp only [Reckoning.run, List.foldl_cons, Reckoning.push, hpower, if_false]

namespace Chain

/-- Above every operator nothing is taken. -/
theorem extend_two {fuel : Nat} {left : Expr} {links : Links}
    (hfuel : (Links.items links).length ≤ fuel) :
    extend fuel 2 left (Links.items links) = some (left, Links.items links) := by
  rcases links with _ | ⟨⟨op, factor⟩, links⟩
  · rw [Links.items_nil, extend]
  · rw [Links.items_cons] at hfuel ⊢
    obtain _ | fuel := fuel
    · simp at hfuel
    · have hpower : ¬ 2 < op.power := by cases op <;> decide
      rw [extend, if_neg hpower]

/-- Climbing starts with a factor and goes on from its tree. -/
theorem climb_factor {fuel : Nat} {floor : Nat} {factor : Factor} {links : Links}
    (hfuel : (factor.items ++ Links.items links).length ≤ fuel) :
    ∃ left, (Links.items links).length ≤ left ∧ left < fuel ∧
      climb fuel floor (factor.items ++ Links.items links) =
        extend left floor factor.tree (Links.items links) := by
  rcases factor with ⟨negations, operand⟩
  induction negations generalizing fuel floor with
  | zero =>
      obtain _ | fuel := fuel
      · simp [Factor.items] at hfuel
      · refine ⟨fuel, by simpa [Factor.items] using hfuel, Nat.lt_succ_self _, ?_⟩
        simp only [Factor.items, List.replicate_zero, List.nil_append, List.cons_append, climb]
        rfl
  | succ negations ih =>
      obtain _ | fuel := fuel
      · simp [Factor.items] at hfuel
      · have hinner : (Factor.items ⟨negations, operand⟩ ++ Links.items links).length ≤ fuel := by
          simp only [Factor.items, List.length_append, List.length_replicate,
            List.length_singleton] at hfuel ⊢
          omega
        obtain ⟨left, hlinks, hleft, hclimb⟩ := @ih _ (negationPower - 1) hinner
        refine ⟨fuel, by omega, Nat.lt_succ_self _, ?_⟩
        -- A negation binds more tightly than any operator, so nothing is taken behind its operand.
        have hextend := @extend_two _ (Factor.tree ⟨negations, operand⟩) _ hlinks
        have hitems : Factor.items ⟨negations + 1, operand⟩ =
            .negation :: Factor.items ⟨negations, operand⟩ := rfl
        rw [hitems, List.cons_append, climb, hclimb, negationPower, hextend]
        rfl

/-- Above the operators of sums, climbing takes the leading product. -/
theorem extend_one {fuel : Nat} {left : Expr} {links : Links}
    (hfuel : (Links.items links).length ≤ fuel) :
    extend fuel 1 left (Links.items links) =
      some ((leadingProduct left links).1, Links.items (leadingProduct left links).2) := by
  induction links generalizing fuel left with
  | nil => rw [Links.items_nil, extend]; rfl
  | cons link links ih =>
      rcases link with ⟨op, factor⟩
      rw [Links.items_cons] at hfuel ⊢
      obtain _ | fuel := fuel
      · simp at hfuel
      · rw [List.length_cons, Nat.succ_le_succ_iff] at hfuel
        rcases op.power_eq_one_or_two with hpower | hpower
        · rw [extend, leadingProduct, if_neg (by omega), if_pos hpower, Links.items_cons]
        · obtain ⟨rest, hlinks, hrest, hclimb⟩ := @climb_factor _ 2 _ _ hfuel
          rw [extend, if_pos (by omega), hpower, hclimb, extend_two hlinks, leadingProduct,
            if_neg (by omega)]
          exact ih (by omega)

/-- From the ground up, climbing takes everything. -/
theorem extend_zero {fuel : Nat} {left : Expr} {links : Links}
    (hfuel : (Links.items links).length ≤ fuel) :
    extend fuel 0 left (Links.items links) =
      some (((Reckoning.start left).run links).close, []) := by
  -- A step takes an operator with the whole product behind it, which may be many links.
  induction hlength : links.length using Nat.strongRecOn generalizing fuel left links with
  | ind length ih =>
      rcases links with _ | ⟨⟨op, factor⟩, links⟩
      · rw [Links.items_nil, extend]
        rfl
      · rw [Links.items_cons] at hfuel ⊢
        obtain _ | fuel := fuel
        · simp at hfuel
        · rw [List.length_cons, Nat.succ_le_succ_iff] at hfuel
          obtain ⟨rest, hlinks, hrest, hclimb⟩ := @climb_factor _ op.power _ _ hfuel
          rw [extend, if_pos (by cases op <;> decide), hclimb]
          rw [List.length_cons] at hlength
          rcases op.power_eq_one_or_two with hpower | hpower
          · have hshorter := leadingProduct_length_le factor.tree links
            have hitems := leadingProduct_items_length_le factor.tree links
            rw [hpower, extend_one hlinks]
            refine (ih _ (by omega) (by omega) rfl).trans ?_
            rw [← close_run_leadingProduct]
            simp only [Reckoning.run, List.foldl_cons, Reckoning.push, hpower, if_true]
            rfl
          · rw [hpower, extend_two hlinks]
            refine (ih _ (by omega) (by omega) rfl).trans ?_
            simp only [Reckoning.run, List.foldl_cons, Reckoning.push, hpower]
            rfl

/-- Precedence climbing builds the tree of the tiers. -/
theorem tree?_items (first : Factor) (links : Links) :
    tree? (first.items ++ Links.items links) = some (tierTree first links) := by
  obtain ⟨rest, hlinks, -, hclimb⟩ := @climb_factor _ 0 first links (Nat.le_refl _)
  rw [tree?, hclimb, extend_zero hlinks]
  rfl

end Chain

end PlZero
