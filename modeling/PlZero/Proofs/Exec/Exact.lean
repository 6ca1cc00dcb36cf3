import Mathlib.Algebra.Group.Int.Defs
import PlZero.Proofs.Exec.Faults

/-! # Exact arithmetic

Evaluation over integers of any size, where a division by zero is the only fault that arithmetic
can raise. Evaluation over words gives the same value or a fault, and the fault says what could
not be a word: it never goes on with a wrong integer.
-/

namespace PlZero

/-! ## Words -/

theorem fitsWord_iff {value : Int} : FitsWord value ↔ -2 ^ 63 ≤ value ∧ value < 2 ^ 63 := by
  rw [FitsWord, Int64.toInt_minValue, Int64.toInt_maxValue]
  omega

theorem toInt_eq_zero_iff {word : Int64} : word.toInt = 0 ↔ word = 0 := by
  rw [← Int64.toInt_inj, Int64.toInt_zero]

/-- A remainder is smaller than what it was divided by. -/
theorem FitsWord.tmod {right : Int} (hright : FitsWord right) (hzero : right ≠ 0) (left : Int) :
    FitsWord (left.tmod right) := by
  rw [fitsWord_iff] at hright ⊢
  have hsize := Int.natAbs_tmod left right
  have hlt : left.natAbs % right.natAbs < right.natAbs := Nat.mod_lt _ (by omega)
  omega

/-- The only quotient of words that is no word is that of the least one by minus one. -/
theorem FitsWord.tdiv {left right : Int} (hleft : FitsWord left)
    (hleast : ¬ (left = -2 ^ 63 ∧ right = -1)) : FitsWord (left.tdiv right) := by
  rw [fitsWord_iff] at hleft ⊢
  have hsize : (left.tdiv right).natAbs = left.natAbs / right.natAbs := Int.natAbs_tdiv left right
  by_cases hone : right.natAbs ≤ 1
  · have hright : right = -1 ∨ right = 0 ∨ right = 1 := by omega
    rcases hright with rfl | rfl | rfl
    · rw [Int.tdiv_neg, Int.tdiv_one]
      omega
    · rw [Int.tdiv_zero]
      omega
    · rw [Int.tdiv_one]
      omega
  · have hhalf : left.natAbs / right.natAbs ≤ left.natAbs / 2 :=
      Nat.div_le_div_left (by omega) (by omega)
    omega

/-! ## Operators -/

/-- A value whose integers may have any size. -/
inductive ExactValue where
  | integer (value : Int)
  | boolean (value : Bool)
  | text (value : String)
  deriving DecidableEq

/-- The kind of a value. -/
def ExactValue.kind : ExactValue → Kind
  | .integer _ => .integer
  | .boolean _ => .boolean
  | .text _ => .text

/-- The truth value that a construct asks for. -/
def ExactValue.truth (context : String) : ExactValue → Except Fault Bool
  | .boolean value => .ok value
  | value => .error (.typeMismatch context [value.kind])

/-- A value with its word as an integer among all integers. -/
def Value.exact : Value → ExactValue
  | .integer value => .integer value.toInt
  | .boolean value => .boolean value
  | .text value => .text value

/-- The result over unbounded integers, which is missing only where a divisor is zero. A quotient
is rounded toward zero, and a remainder has the sign of the dividend. -/
def ArithOp.applyExact (op : ArithOp) (left right : Int) : Except Fault Int :=
  match op with
  | .add => .ok (left + right)
  | .sub => .ok (left - right)
  | .mul => .ok (left * right)
  | .div => if right = 0 then .error (.divisionByZero op.symbol) else .ok (left.tdiv right)
  | .rem => if right = 0 then .error (.divisionByZero op.symbol) else .ok (left.tmod right)

/-- Whether two integers compare as an operator says. -/
def CompareOp.holdsExact : CompareOp → Int → Int → Bool
  | .lt, left, right => left < right
  | .gt, left, right => right < left
  | .le, left, right => left ≤ right
  | .ge, left, right => right ≤ left
  | .eq, left, right => left = right

/-- Applies an operator to two values, with no limit to the size of a result. -/
def BinaryOp.applyExact (op : BinaryOp) (left right : ExactValue) : Except Fault ExactValue :=
  match op, left, right with
  | .arith op, .integer left, .integer right => (op.applyExact left right).map .integer
  | .compare .eq, left, right =>
      if left.kind = right.kind then .ok (.boolean (left = right))
      else .error (.typeMismatch CompareOp.eq.symbol [left.kind, right.kind])
  | .compare op, .integer left, .integer right => .ok (.boolean (op.holdsExact left right))
  | op, left, right => .error (.typeMismatch op.symbol [left.kind, right.kind])

/-- A remainder that is a word, but whose quotient is none. -/
def ArithOp.LacksQuotient (op : ArithOp) (left right : Int) : Prop :=
  op = .rem ∧ left = -2 ^ 63 ∧ right = -1

/-- The same of operators between values. -/
def BinaryOp.LacksQuotient (op : BinaryOp) (left right : ExactValue) : Prop :=
  op = .arith .rem ∧ left = .integer (-2 ^ 63) ∧ right = .integer (-1)

theorem Value.exact_inj {left right : Value} : left.exact = right.exact ↔ left = right := by
  cases left <;> cases right <;> simp [exact, Int64.toInt_inj]

@[simp]
theorem Value.kind_exact (value : Value) : value.exact.kind = value.kind := by
  cases value <;> rfl

@[simp]
theorem Value.truth_exact (context : String) (value : Value) :
    value.exact.truth context = value.truth context := by
  cases value <;> rfl

/-- A value whose integer is in range is a value of the language. -/
theorem ExactValue.exists_exact {value : ExactValue}
    (hrange : ∀ number, value = .integer number → FitsWord number) :
    ∃ result : Value, result.exact = value := by
  cases value with
  | integer number =>
      exact ⟨.integer (.ofInt number), congrArg integer (hrange number rfl).toInt_ofInt⟩
  | boolean value => exact ⟨.boolean value, rfl⟩
  | text value => exact ⟨.text value, rfl⟩

namespace ArithOp

variable {op : ArithOp} {left right : Int64}

/-- Operators between words work with the same results. -/
theorem applyExact_eq (op : ArithOp) (left right : Int) :
    op.applyExact left right =
      if op.isDivision && right = 0 then .error (.divisionByZero op.symbol)
      else .ok (op.exact left right) := by
  cases op <;> simp [applyExact, exact, isDivision]

/-- What has to be a word is one exactly if the result is a word and has a quotient. -/
theorem fitsWord_critical_iff (hzero : ¬ (op.isDivision ∧ right = 0)) :
    FitsWord (op.critical left.toInt right.toInt) ↔
      FitsWord (op.exact left.toInt right.toInt) ∧
        ¬ op.LacksQuotient left.toInt right.toInt := by
  cases op with
  | rem =>
      have hright : right.toInt ≠ 0 := fun hright =>
        hzero ⟨rfl, toInt_eq_zero_iff.mp hright⟩
      have hrem : FitsWord (ArithOp.exact .rem left.toInt right.toInt) :=
        (fitsWord_toInt right).tmod hright left.toInt
      constructor
      · intro hquotient
        refine ⟨hrem, fun hlacks => ?_⟩
        rw [critical, hlacks.2.1, hlacks.2.2] at hquotient
        exact absurd hquotient (by decide)
      · intro hfits
        exact (fitsWord_toInt left).tdiv fun hleast => hfits.2 ⟨rfl, hleast⟩
  | add => simp [critical, LacksQuotient]
  | sub => simp [critical, LacksQuotient]
  | mul => simp [critical, LacksQuotient]
  | div => simp [critical, LacksQuotient]

theorem apply_eq_ok_iff {result : Int64} :
    op.apply left right = .ok result ↔
      op.applyExact left.toInt right.toInt = .ok result.toInt ∧
        ¬ op.LacksQuotient left.toInt right.toInt := by
  rw [apply, applyExact_eq]
  simp only [Bool.and_eq_true, decide_eq_true_eq, toInt_eq_zero_iff]
  by_cases hzero : op.isDivision ∧ right = 0
  · simp [hzero]
  · rw [if_neg hzero, if_neg hzero]
    have hcritical := @fitsWord_critical_iff op left right hzero
    constructor
    · intro happly
      split at happly
      next hfits =>
        rw [hcritical] at hfits
        rw [← Except.ok.inj happly, hfits.1.toInt_ofInt]
        exact ⟨rfl, hfits.2⟩
      next => cases happly
    · intro hexact
      have hresult := Except.ok.inj hexact.1
      rw [if_pos (hcritical.mpr ⟨hresult ▸ fitsWord_toInt result, hexact.2⟩), hresult,
        Int64.ofInt_toInt]

/-- An operator overflows because the exact result is no word, or has no quotient. -/
theorem apply_eq_overflow {symbol : String}
    (happly : op.apply left right = .error (.integerOverflow symbol)) :
    symbol = op.symbol ∧ ∃ result, op.applyExact left.toInt right.toInt = .ok result ∧
      (¬ FitsWord result ∨ op.LacksQuotient left.toInt right.toInt) := by
  obtain ⟨-, -, hfault⟩ | ⟨hdivision, hcritical, hfault⟩ := apply_eq_error_iff.mp happly
  · cases hfault
  · cases hfault
    refine ⟨rfl, op.exact left.toInt right.toInt, ?_, ?_⟩
    · rw [applyExact_eq]
      simp only [Bool.and_eq_true, decide_eq_true_eq, toInt_eq_zero_iff]
      exact if_neg hdivision
    · rw [fitsWord_critical_iff hdivision] at hcritical
      exact Decidable.not_and_iff_not_or_not.mp hcritical |>.imp_right Classical.not_not.mp

end ArithOp

theorem CompareOp.holdsExact_toInt (op : CompareOp) (left right : Int64) :
    op.holdsExact left.toInt right.toInt = op.holds left right := by
  cases op <;>
    simp [holdsExact, holds, Int64.lt_iff_toInt_lt, Int64.le_iff_toInt_le, Int64.toInt_inj]

namespace BinaryOp

/-- Comparing takes words as the integers they are. -/
theorem applyExact_compare (op : CompareOp) (left right : Value) :
    (compare op).applyExact left.exact right.exact =
      ((compare op).apply left right).map Value.exact := by
  by_cases heq : op = .eq
  · subst heq
    simp only [applyExact, apply, Value.kind_exact, Value.exact_inj]
    split <;> rfl
  · by_cases hkinds : left.kind = .integer ∧ right.kind = .integer
    · obtain ⟨one, rfl⟩ := Value.exists_of_kind_eq_integer hkinds.1
      obtain ⟨other, rfl⟩ := Value.exists_of_kind_eq_integer hkinds.2
      have hholds := op.holdsExact_toInt one other
      cases op <;> simp_all [applyExact, apply, Value.exact, Except.map]
    · cases op <;> cases left <;> cases right <;> first | rfl | simp_all [Value.kind]

theorem lacksQuotient_arith_iff {op : ArithOp} {left right : Int} :
    (arith op).LacksQuotient (.integer left) (.integer right) ↔ op.LacksQuotient left right := by
  simp [LacksQuotient, ArithOp.LacksQuotient]

/-- Values with an integer result are those that exact arithmetic gives, unless it lacks a
quotient. -/
theorem apply_eq_ok_iff {op : BinaryOp} {left right result : Value} :
    op.apply left right = .ok result ↔
      op.applyExact left.exact right.exact = .ok result.exact ∧
        ¬ op.LacksQuotient left.exact right.exact := by
  cases op with
  | compare op =>
      have hword : ¬ (compare op).LacksQuotient left.exact right.exact := nofun
      rw [applyExact_compare, and_iff_left hword]
      cases (compare op).apply left right with
      | error fault => exact ⟨nofun, nofun⟩
      | ok value => simp [Except.map, Value.exact_inj]
  | arith op =>
      by_cases hkinds : left.kind = .integer ∧ right.kind = .integer
      · obtain ⟨one, rfl⟩ := Value.exists_of_kind_eq_integer hkinds.1
        obtain ⟨other, rfl⟩ := Value.exists_of_kind_eq_integer hkinds.2
        simp only [apply, applyExact, Value.exact, lacksQuotient_arith_iff]
        rw [map_eq_ok_iff, map_eq_ok_iff]
        constructor
        · rintro ⟨number, happly, rfl⟩
          obtain ⟨hexact, hquotient⟩ := ArithOp.apply_eq_ok_iff.mp happly
          exact ⟨⟨number.toInt, hexact, rfl⟩, hquotient⟩
        · rintro ⟨⟨number, hexact, hnumber⟩, hquotient⟩
          cases result with
          | integer result =>
              cases hnumber
              exact ⟨result, ArithOp.apply_eq_ok_iff.mpr ⟨hexact, hquotient⟩, rfl⟩
          | boolean result => cases hnumber
          | text result => cases hnumber
      · cases left <;> cases right <;> simp_all [Value.kind, apply, applyExact, Value.exact]

end BinaryOp

/-! ## Expressions -/

namespace Expr

/-- The value of an expression over integers of any size, or the first fault. -/
def evalExact (env : Environment) : Expr → Except Fault ExactValue
  | .binary left op right => do
      let left ← left.evalExact env
      let right ← right.evalExact env
      op.applyExact left right
  | .not operand => do
      let operand ← operand.evalExact env
      let truth ← operand.truth "!"
      .ok (.boolean !truth)
  | .ident name => (env.lookup name).map Value.exact
  | .int value => .ok (.integer value.toInt)
  | .bool value => .ok (.boolean value)
  | .str text => .ok (.text text)

/-- Every integer in an exact evaluation is in the range of a word. -/
def InRange (env : Environment) (value : Expr) : Prop :=
  ∀ part ∈ value.parts, ∀ number, part.evalExact env = .ok (.integer number) →
    -2 ^ 63 ≤ number ∧ number < 2 ^ 63

/-- Somewhere in an exact evaluation, the least word is divided by minus one for a remainder. -/
def LacksQuotient (env : Environment) (value : Expr) : Prop :=
  ∃ left right, .binary left (.arith .rem) right ∈ value.parts ∧
    left.evalExact env = .ok (.integer (-2 ^ 63)) ∧ right.evalExact env = .ok (.integer (-1))

variable {env : Environment}

theorem self_mem_parts (value : Expr) : value ∈ value.parts := by
  cases value <;> exact List.mem_cons_self

theorem evalExact_binary_eq_ok_iff {left right : Expr} {op : BinaryOp} {result : ExactValue} :
    (binary left op right).evalExact env = .ok result ↔
      ∃ one, left.evalExact env = .ok one ∧ ∃ other, right.evalExact env = .ok other ∧
        op.applyExact one other = .ok result := by
  rw [evalExact]
  simp only [bind_eq_ok_iff]

/-- Every part of an expression with a value has a value. -/
theorem exists_eval_of_mem_parts {value part : Expr} {result : Value}
    (heval : value.eval env = .ok result) (hpart : part ∈ value.parts) :
    ∃ inner, part.eval env = .ok inner := by
  induction value generalizing result with
  | binary left op right ihleft ihright =>
      obtain ⟨one, other, hleft, hright, -⟩ := eval_binary_eq_ok_iff.mp heval
      rcases List.mem_cons.mp hpart with rfl | hpart
      · exact ⟨result, heval⟩
      · rcases List.mem_append.mp hpart with hpart | hpart
        · exact ihleft hleft hpart
        · exact ihright hright hpart
  | not operand ih =>
      obtain ⟨truth, hoperand, -⟩ := eval_not_eq_ok_iff.mp heval
      rcases List.mem_cons.mp hpart with rfl | hpart
      · exact ⟨result, heval⟩
      · exact ih hoperand hpart
  | ident name => exact ⟨result, List.mem_singleton.mp hpart ▸ heval⟩
  | int number => exact ⟨result, List.mem_singleton.mp hpart ▸ heval⟩
  | bool truth => exact ⟨result, List.mem_singleton.mp hpart ▸ heval⟩
  | str text => exact ⟨result, List.mem_singleton.mp hpart ▸ heval⟩

/-- A value over words is the exact value. -/
theorem evalExact_of_eval {value : Expr} {result : Value}
    (heval : value.eval env = .ok result) : value.evalExact env = .ok result.exact := by
  induction value generalizing result with
  | binary left op right ihleft ihright =>
      obtain ⟨one, other, hleft, hright, happly⟩ := eval_binary_eq_ok_iff.mp heval
      exact evalExact_binary_eq_ok_iff.mpr ⟨one.exact, ihleft hleft, other.exact,
        ihright hright, (BinaryOp.apply_eq_ok_iff.mp happly).1⟩
  | not operand ih =>
      obtain ⟨truth, hoperand, rfl⟩ := eval_not_eq_ok_iff.mp heval
      unfold evalExact
      rw [ih hoperand]
      rfl
  | ident name =>
      unfold evalExact
      exact map_eq_ok_iff.mpr ⟨result, heval, rfl⟩
  | int number =>
      cases heval
      rfl
  | bool truth =>
      cases heval
      rfl
  | str text =>
      cases heval
      rfl

theorem inRange_of_eval {value : Expr} {result : Value} (heval : value.eval env = .ok result) :
    value.InRange env := by
  intro part hpart number hnumber
  obtain ⟨inner, hinner⟩ := exists_eval_of_mem_parts heval hpart
  rw [evalExact_of_eval hinner] at hnumber
  rw [← fitsWord_iff]
  cases inner with
  | integer word =>
      cases hnumber
      exact fitsWord_toInt word
  | boolean truth => cases hnumber
  | text text => cases hnumber

theorem not_lacksQuotient_of_eval {value : Expr} {result : Value}
    (heval : value.eval env = .ok result) : ¬ value.LacksQuotient env := by
  rintro ⟨left, right, hpart, hleft, hright⟩
  obtain ⟨inner, hinner⟩ := exists_eval_of_mem_parts heval hpart
  obtain ⟨one, other, hone, hother, happly⟩ := eval_binary_eq_ok_iff.mp hinner
  rw [evalExact_of_eval hone] at hleft
  rw [evalExact_of_eval hother] at hright
  exact (BinaryOp.apply_eq_ok_iff.mp happly).2
    ⟨rfl, Except.ok.inj hleft, Except.ok.inj hright⟩

theorem InRange.of_subset {value part : Expr} (hrange : value.InRange env)
    (hparts : part.parts ⊆ value.parts) : part.InRange env :=
  fun inner hinner => hrange inner (hparts hinner)

theorem LacksQuotient.of_subset {value part : Expr} (hlacks : part.LacksQuotient env)
    (hparts : part.parts ⊆ value.parts) : value.LacksQuotient env := by
  obtain ⟨left, right, hpart, hleft, hright⟩ := hlacks
  exact ⟨left, right, hparts hpart, hleft, hright⟩

/-- Evaluation over words gives every exact value that needs no other integers than words. -/
theorem exists_eval_of_evalExact {value : Expr} {result : ExactValue}
    (hexact : value.evalExact env = .ok result) (hrange : value.InRange env)
    (hquotient : ¬ value.LacksQuotient env) :
    ∃ final, value.eval env = .ok final ∧ final.exact = result := by
  induction value generalizing result with
  | binary left op right ihleft ihright =>
      have hleftparts : left.parts ⊆ (binary left op right).parts :=
        List.subset_cons_of_subset _ (List.subset_append_left _ _)
      have hrightparts : right.parts ⊆ (binary left op right).parts :=
        List.subset_cons_of_subset _ (List.subset_append_right _ _)
      obtain ⟨one, hone, other, hother, happly⟩ := evalExact_binary_eq_ok_iff.mp hexact
      obtain ⟨first, hfirst, rfl⟩ := ihleft hone (hrange.of_subset hleftparts)
        fun hlacks => hquotient (hlacks.of_subset hleftparts)
      obtain ⟨second, hsecond, rfl⟩ := ihright hother (hrange.of_subset hrightparts)
        fun hlacks => hquotient (hlacks.of_subset hrightparts)
      have hword : ∀ number, result = .integer number → FitsWord number :=
        fun number hnumber =>
          fitsWord_iff.mpr (hrange _ (self_mem_parts _) number (hnumber ▸ hexact))
      obtain ⟨final, rfl⟩ := ExactValue.exists_exact hword
      refine ⟨final, eval_binary_eq_ok_iff.mpr ⟨first, second, hfirst, hsecond, ?_⟩, rfl⟩
      refine BinaryOp.apply_eq_ok_iff.mpr ⟨happly, fun hlacks => hquotient ?_⟩
      obtain ⟨rfl, hleast, hminus⟩ := hlacks
      exact ⟨left, right, self_mem_parts _, hleast ▸ hone, hminus ▸ hother⟩
  | not operand ih =>
      have hparts : operand.parts ⊆ (Expr.not operand).parts := List.subset_cons_self _ _
      unfold evalExact at hexact
      simp only [bind_eq_ok_iff] at hexact
      obtain ⟨inner, hinner, truth, htruth, hresult⟩ := hexact
      obtain ⟨final, hfinal, rfl⟩ := ih hinner (hrange.of_subset hparts)
        fun hlacks => hquotient (hlacks.of_subset hparts)
      rw [Value.truth_exact, Value.truth_eq_ok_iff] at htruth
      subst htruth
      exact ⟨.boolean !truth, eval_not_eq_ok_iff.mpr ⟨truth, hfinal, rfl⟩, Except.ok.inj hresult⟩
  | ident name =>
      obtain ⟨final, hfinal, rfl⟩ := map_eq_ok_iff.mp hexact
      exact ⟨final, hfinal, rfl⟩
  | int number => exact ⟨.integer number, rfl, Except.ok.inj hexact⟩
  | bool truth => exact ⟨.boolean truth, rfl, Except.ok.inj hexact⟩
  | str text => exact ⟨.text text, rfl, Except.ok.inj hexact⟩

/-- A fault of arithmetic is raised between two integers. -/
theorem Raises.exists_apply {part : Expr} {fault : Fault} (hraises : part.Raises env fault)
    {symbol : String} (harith : fault = .divisionByZero symbol ∨ fault = .integerOverflow symbol) :
    ∃ left op right one other, part = .binary left (.arith op) right ∧
      left.eval env = .ok (.integer one) ∧ right.eval env = .ok (.integer other) ∧
      op.apply one other = .error fault := by
  cases hraises with
  | @ident name hlookup =>
      obtain ⟨-, rfl⟩ := Environment.lookup_eq_error_iff.mp hlookup
      simp at harith
  | @not operand value hoperand htruth =>
      obtain ⟨-, rfl⟩ := Value.truth_eq_error_iff.mp htruth
      simp at harith
  | @binary left op right one other hleft hright happly =>
      obtain ⟨-, rfl⟩ | ⟨op, first, second, rfl, rfl, rfl, hfault⟩ :=
        BinaryOp.apply_eq_error happly
      · simp at harith
      · exact ⟨left, op, right, first, second, rfl, hleft, hright, hfault⟩

/-- Arithmetic is exact or faults. A value is the value that evaluation has over integers of any
size, all of which are words. An overflow comes from an operator between two integers whose exact
result is no word, or has no quotient, and a division by zero from an operator with a zero on its
right. Wherever exact evaluation needs no other integers than words, and no quotient that is none,
evaluation gives the same value. -/
theorem eval_exact_or_fault (env : Environment) (value : Expr) :
    (∀ result, value.eval env = .ok result →
      value.evalExact env = .ok result.exact ∧ value.InRange env ∧ ¬ value.LacksQuotient env) ∧
    (∀ symbol, value.eval env = .error (.integerOverflow symbol) →
      ∃ left op right one other, .binary left (.arith op) right ∈ value.parts ∧
        symbol = op.symbol ∧ left.eval env = .ok (.integer one) ∧
        right.eval env = .ok (.integer other) ∧
        ((∃ number, op.applyExact one.toInt other.toInt = .ok number ∧
            ¬ (-2 ^ 63 ≤ number ∧ number < 2 ^ 63)) ∨
          op.LacksQuotient one.toInt other.toInt)) ∧
    (∀ symbol, value.eval env = .error (.divisionByZero symbol) →
      ∃ left op right one, .binary left (.arith op) right ∈ value.parts ∧
        op ∈ [ArithOp.div, .rem] ∧ symbol = op.symbol ∧ left.eval env = .ok (.integer one) ∧
        right.eval env = .ok (.integer 0)) ∧
    ∀ result, value.evalExact env = .ok result → value.InRange env → ¬ value.LacksQuotient env →
      ∃ final, value.eval env = .ok final ∧ final.exact = result := by
  refine ⟨?value, ?overflow, ?division, ?exact⟩
  case value =>
    intro result heval
    exact ⟨evalExact_of_eval heval, inRange_of_eval heval, not_lacksQuotient_of_eval heval⟩
  case overflow =>
    intro symbol heval
    obtain ⟨part, hpart, hraises⟩ := exists_raises_of_eval heval
    obtain ⟨left, op, right, one, other, rfl, hleft, hright, happly⟩ :=
      hraises.exists_apply (.inr rfl)
    obtain ⟨hsymbol, number, hnumber, hword⟩ := ArithOp.apply_eq_overflow happly
    rw [fitsWord_iff] at hword
    exact ⟨left, op, right, one, other, hpart, hsymbol, hleft, hright,
      hword.imp_left fun hword => ⟨number, hnumber, hword⟩⟩
  case division =>
    intro symbol heval
    obtain ⟨part, hpart, hraises⟩ := exists_raises_of_eval heval
    obtain ⟨left, op, right, one, other, rfl, hleft, hright, happly⟩ :=
      hraises.exists_apply (.inl rfl)
    obtain ⟨hdivision, rfl, hfault⟩ | ⟨-, -, hfault⟩ := ArithOp.apply_eq_error_iff.mp happly
    · cases hfault
      exact ⟨left, op, right, one, hpart, ArithOp.isDivision_iff.mp hdivision, rfl, hleft, hright⟩
    · cases hfault
  case exact =>
    intro result hexact hrange hquotient
    exact exists_eval_of_evalExact hexact hrange hquotient

/-- Half of a product that is odd and negative, the remainder of the least word by minus one, and
one by zero. -/
theorem eval_exact_or_fault_at_limits :
    let env := Environment.empty.assign "least" (.integer Int64.minValue)
    let minus (number : Int64) : Expr := .binary (.int 0) (.arith .sub) (.int number)
    let sum : Expr := .binary (.int 3) (.arith .add) (.int 4)
    let product : Expr := .binary sum (.arith .mul) (minus 5)
    let quotient : Expr := .binary product (.arith .div) (.int 2)
    let corner : Expr := .binary (.ident "least") (.arith .rem) (minus 1)
    let zero : Expr := .binary (.int 1) (.arith .rem) (.int 0)
    (quotient.eval env = .ok (.integer (-17)) ∧ quotient.evalExact env = .ok (.integer (-17)) ∧
      quotient.InRange env ∧ ¬ quotient.LacksQuotient env) ∧
    (corner.eval env = .error (.integerOverflow "%") ∧
      ∃ left op right one other, .binary left (.arith op) right ∈ corner.parts ∧
        "%" = op.symbol ∧ left.eval env = .ok (.integer one) ∧
        right.eval env = .ok (.integer other) ∧
        ((∃ number, op.applyExact one.toInt other.toInt = .ok number ∧
            ¬ (-2 ^ 63 ≤ number ∧ number < 2 ^ 63)) ∨
          op.LacksQuotient one.toInt other.toInt)) ∧
    (zero.eval env = .error (.divisionByZero "%") ∧
      ∃ left op right one, .binary left (.arith op) right ∈ zero.parts ∧
        op ∈ [ArithOp.div, .rem] ∧ "%" = op.symbol ∧ left.eval env = .ok (.integer one) ∧
        right.eval env = .ok (.integer 0)) ∧
    ∃ final, quotient.eval env = .ok final ∧ final.exact = .integer (-17) := by
  intro env minus sum product quotient corner zero
  have hquotient : quotient.eval env = .ok (.integer (-17)) := rfl
  have hcorner : corner.eval env = .error (.integerOverflow "%") := rfl
  have hzero : zero.eval env = .error (.divisionByZero "%") := rfl
  have hvalue := (eval_exact_or_fault env quotient).1 _ hquotient
  exact ⟨⟨hquotient, hvalue⟩, ⟨hcorner, (eval_exact_or_fault env corner).2.1 _ hcorner⟩,
    ⟨hzero, (eval_exact_or_fault env zero).2.2.1 _ hzero⟩,
    (eval_exact_or_fault env quotient).2.2.2 _ hvalue.1 hvalue.2.1 hvalue.2.2⟩

end Expr

end PlZero
