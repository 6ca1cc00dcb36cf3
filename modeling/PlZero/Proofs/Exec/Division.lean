import PlZero.Parse
import PlZero.Proofs.Exec.Exact

/-! # Quotients and remainders

A quotient and a remainder of two integers exist together: what makes one of them fault makes the
other one fault in the same way. Where they exist, the quotient times the divisor and the remainder
make up the dividend, and no integer on the way is too large for a word.
-/

namespace PlZero

/-! ## Words -/

/-- The quotient times the divisor lies between zero and the dividend. -/
theorem FitsWord.tdiv_mul {left : Int} (hleft : FitsWord left) (right : Int) :
    FitsWord (left.tdiv right * right) := by
  have hwhole : left.tdiv right * right + left.tmod right = left := Int.tdiv_mul_add_tmod left right
  have hsize : (left.tmod right).natAbs ≤ left.natAbs := by
    rw [Int.natAbs_tmod]
    exact Nat.mod_le _ _
  rw [fitsWord_iff] at hleft ⊢
  rcases Int.le_total 0 left with hsign | hsign
  · have hrem : 0 ≤ left.tmod right := Int.tmod_nonneg right hsign
    omega
  · have hrem : 0 ≤ (-left).tmod right := Int.tmod_nonneg right (Int.neg_nonneg_of_nonpos hsign)
    rw [Int.neg_tmod] at hrem
    omega

/-- The least word by minus one is the only quotient of words that is no word. -/
theorem fitsWord_tdiv_iff {left right : Int64} :
    FitsWord (left.toInt.tdiv right.toInt) ↔
      ¬ (left.toInt = -2 ^ 63 ∧ right.toInt = -1) := by
  constructor
  · rintro hquotient ⟨hleft, hright⟩
    rw [hleft, hright] at hquotient
    exact absurd hquotient (by decide)
  · exact (fitsWord_toInt left).tdiv

/-- A remainder has the sign of the dividend, unless there is none. -/
theorem tmod_eq_zero_or_sign_eq (left right : Int) :
    left.tmod right = 0 ∨ (left.tmod right).sign = left.sign := by
  by_cases hdvd : right ∣ left
  · exact .inl (Int.tmod_eq_zero_of_dvd hdvd)
  · exact .inr (by rw [Int.sign_tmod, if_neg hdvd])

namespace ArithOp

variable {op : ArithOp} {left right : Int64}

/-- Both operators of a division fault for the same operands. -/
theorem apply_division_eq_error_iff (hop : op.isDivision) {fault : Fault} :
    op.apply left right = .error fault ↔
      (right.toInt = 0 ∧ fault = .divisionByZero op.symbol) ∨
        (left.toInt = -2 ^ 63 ∧ right.toInt = -1 ∧ fault = .integerOverflow op.symbol) := by
  have hcritical : op.critical left.toInt right.toInt = left.toInt.tdiv right.toInt := by
    cases op <;> first | rfl | cases hop
  rw [apply_eq_error_iff, hcritical, fitsWord_tdiv_iff, toInt_eq_zero_iff, Classical.not_not]
  constructor
  · rintro (⟨-, hzero, hfault⟩ | ⟨-, ⟨hleast, hminus⟩, hfault⟩)
    · exact .inl ⟨hzero, hfault⟩
    · exact .inr ⟨hleast, hminus, hfault⟩
  · rintro (⟨hzero, hfault⟩ | ⟨hleast, hminus, hfault⟩)
    · exact .inl ⟨hop, hzero, hfault⟩
    · refine .inr ⟨fun hzero => ?_, ⟨hleast, hminus⟩, hfault⟩
      rw [hzero.2] at hminus
      exact absurd hminus (by decide)

/-- An operator gives the word of its exact result, if that is one and has a quotient. -/
theorem exists_apply_of_fits {number : Int}
    (hexact : op.exact left.toInt right.toInt = number) (hfits : FitsWord number)
    (hzero : op.isDivision → right.toInt ≠ 0)
    (hquotient : ¬ op.LacksQuotient left.toInt right.toInt) :
    ∃ word, op.apply left right = .ok word ∧ word.toInt = number := by
  refine ⟨Int64.ofInt number, apply_eq_ok_iff.mpr ⟨?_, hquotient⟩, hfits.toInt_ofInt⟩
  rw [applyExact_eq, if_neg (by simpa using hzero), hexact, hfits.toInt_ofInt]

end ArithOp

namespace Expr

variable {env : Environment} {dividend divisor : Expr} {left right : Int64}

theorem eval_arith_eq_ok (hleft : dividend.eval env = .ok (.integer left))
    (hright : divisor.eval env = .ok (.integer right)) {op : ArithOp} {result : Int64}
    (happly : op.apply left right = .ok result) :
    (binary dividend (.arith op) divisor).eval env = .ok (.integer result) :=
  eval_binary_eq_ok_iff.mpr ⟨_, _, hleft, hright, map_eq_ok_iff.mpr ⟨result, happly, rfl⟩⟩

/-- A quotient times its divisor and the remainder, compared with the dividend. -/
def recomposition (dividend divisor : Expr) : Expr :=
  let quotient : Expr := .binary dividend (.arith .div) divisor
  let remainder : Expr := .binary dividend (.arith .rem) divisor
  let product : Expr := .binary quotient (.arith .mul) divisor
  .binary (.binary product (.arith .add) remainder) (.compare .eq) dividend

/-- Where a quotient and a remainder exist, they make up the dividend. -/
theorem eval_recomposition (hleft : dividend.eval env = .ok (.integer left))
    (hright : divisor.eval env = .ok (.integer right)) (hzero : right.toInt ≠ 0)
    (hleast : ¬ (left.toInt = -2 ^ 63 ∧ right.toInt = -1)) :
    ∃ quotient remainder : Int64,
      (binary dividend (.arith .div) divisor).eval env = .ok (.integer quotient) ∧
      (binary dividend (.arith .rem) divisor).eval env = .ok (.integer remainder) ∧
      quotient.toInt = left.toInt.tdiv right.toInt ∧
      remainder.toInt = left.toInt.tmod right.toInt ∧
      (recomposition dividend divisor).eval env = .ok (.boolean true) := by
  obtain ⟨quotient, hdiv, hquotient⟩ :=
    @ArithOp.exists_apply_of_fits .div left right _ rfl (fitsWord_tdiv_iff.mpr hleast)
      (fun _ => hzero) (fun hlacks => nomatch hlacks.1)
  obtain ⟨remainder, hrem, hremainder⟩ :=
    @ArithOp.exists_apply_of_fits .rem left right _ rfl ((fitsWord_toInt right).tmod hzero _)
      (fun _ => hzero) (fun hlacks => hleast hlacks.2)
  obtain ⟨product, hmul, hproduct⟩ :=
    @ArithOp.exists_apply_of_fits .mul quotient right _ (by rw [hquotient]; rfl)
      ((fitsWord_toInt left).tdiv_mul right.toInt) nofun (fun hlacks => nomatch hlacks.1)
  -- The last sum is the dividend again, so it fits as well.
  obtain ⟨sum, hadd, hsum⟩ :=
    @ArithOp.exists_apply_of_fits .add product remainder left.toInt
      (by rw [hproduct, hremainder]; exact Int.tdiv_mul_add_tmod _ _) (fitsWord_toInt left) nofun
      (fun hlacks => nomatch hlacks.1)
  obtain rfl : sum = left := Int64.toInt_inj.mp hsum
  have hquotientEval := eval_arith_eq_ok hleft hright hdiv
  have hremainderEval := eval_arith_eq_ok hleft hright hrem
  have hproductEval := eval_arith_eq_ok hquotientEval hright hmul
  have hsumEval := eval_arith_eq_ok hproductEval hremainderEval hadd
  refine ⟨quotient, remainder, hquotientEval, hremainderEval, hquotient, hremainder,
    eval_binary_eq_ok_iff.mpr ⟨_, _, hsumEval, hleft, ?_⟩⟩
  simp [BinaryOp.apply]

/-- A quotient and a remainder of two integers fault for the same operands and in the same way:
the divisor is zero, or the least word is divided by minus one. For all other operands the
quotient times the divisor and the remainder make up the dividend, with words all the way, and the
remainder is smaller than the divisor and has the sign of the dividend. -/
theorem eval_division (hleft : dividend.eval env = .ok (.integer left))
    (hright : divisor.eval env = .ok (.integer right)) :
    (∀ op ∈ [ArithOp.div, .rem], ∀ fault,
      (binary dividend (.arith op) divisor).eval env = .error fault ↔
        (right.toInt = 0 ∧ fault = .divisionByZero op.symbol) ∨
          (left.toInt = -2 ^ 63 ∧ right.toInt = -1 ∧ fault = .integerOverflow op.symbol)) ∧
    (right.toInt ≠ 0 → ¬ (left.toInt = -2 ^ 63 ∧ right.toInt = -1) →
      (recomposition dividend divisor).eval env = .ok (.boolean true) ∧
      (recomposition dividend divisor).InRange env ∧
      ∃ remainder : Int64,
        (binary dividend (.arith .rem) divisor).eval env = .ok (.integer remainder) ∧
        remainder.toInt.natAbs < right.toInt.natAbs ∧
        (remainder.toInt = 0 ∨ remainder.toInt.sign = left.toInt.sign)) := by
  refine ⟨fun op hop fault => ?_, fun hzero hleast => ?_⟩
  · rw [← ArithOp.apply_division_eq_error_iff (ArithOp.isDivision_iff.mpr hop),
      eval_binary_eq_error_iff]
    simp [hleft, hright, BinaryOp.apply, map_eq_error_iff]
  · obtain ⟨quotient, remainder, -, hrem, -, hremainder, hwhole⟩ :=
      eval_recomposition hleft hright hzero hleast
    refine ⟨hwhole, inRange_of_eval hwhole, remainder, hrem, ?_, ?_⟩
    · rw [hremainder, Int.natAbs_tmod]
      exact Nat.mod_lt _ (Int.natAbs_pos.mpr hzero)
    · rw [hremainder]
      exact tmod_eq_zero_or_sign_eq _ _

/-- The least word by seven, and by minus one. -/
theorem eval_division_least :
    let env := Environment.empty.assign "least" (.integer Int64.minValue)
    let dividend : Expr := .ident "least"
    let minus : Expr := .binary (.int 0) (.arith .sub) (.int 1)
    (dividend.eval env = .ok (.integer Int64.minValue) ∧
      (Expr.int 7).eval env = .ok (.integer 7) ∧ minus.eval env = .ok (.integer (-1))) ∧
    (binary dividend (.arith .rem) minus).eval env = .error (.integerOverflow "%") ∧
    (recomposition dividend (.int 7)).eval env = .ok (.boolean true) ∧
      (recomposition dividend (.int 7)).InRange env ∧
      ∃ remainder : Int64,
        (binary dividend (.arith .rem) (.int 7)).eval env = .ok (.integer remainder) ∧
        remainder.toInt.natAbs < (7 : Int64).toInt.natAbs ∧
        (remainder.toInt = 0 ∨ remainder.toInt.sign = Int64.minValue.toInt.sign) := by
  intro env dividend minus
  have hdividend : dividend.eval env = .ok (.integer Int64.minValue) := rfl
  have hseven : (Expr.int 7).eval env = .ok (.integer 7) := rfl
  have hminus : minus.eval env = .ok (.integer (-1)) := rfl
  refine ⟨⟨hdividend, hseven, hminus⟩, ?_, ?_⟩
  · exact ((eval_division hdividend hminus).1 .rem (by decide) _).mpr
      (.inr ⟨by decide, by decide, rfl⟩)
  · exact (eval_division hdividend hseven).2 (by decide) fun hleast =>
      absurd hleast.2 (by decide)

example :
    (Expr.parse "(a / b) * b + a % b == a").toOption =
      some (recomposition (.ident "a") (.ident "b")) := by
  decide +kernel

end Expr

end PlZero
