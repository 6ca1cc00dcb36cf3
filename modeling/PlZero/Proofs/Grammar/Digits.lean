import PlZero.Proofs.Grammar.Tokens
import PlZero.Proofs.Peg.Recode

/-! # Texts with other digits

The grammar does not tell digits apart, so a text matches if it does with zeros instead of its
digits. Only what an integer literal stands for is another matter, and zeros always stand for a
word.
-/

namespace PlZero

open Peg PlZero.Language

/-- A zero instead of any digit. -/
def zeroDigit (char : Char) : Char := if char.isDigit then '0' else char

theorem zeroDigit_eq_iff {char : Char} (hchar : char.isDigit = false) (other : Char) :
    zeroDigit other = char ↔ other = char := by
  unfold zeroDigit
  split
  next hdigit =>
    constructor
    · rintro rfl
      cases hchar
    · rintro rfl
      rw [hdigit] at hchar
      cases hchar
  next => rfl

theorem zeroDigit_comp : zeroDigit ∘ zeroDigit = zeroDigit := by
  funext char
  by_cases hdigit : char.isDigit <;> simp [zeroDigit, hdigit]

/-- A class that holds all digits or none of them does not see which digit it is. -/
theorem accepts_zeroDigit {accepts : Char → Bool}
    (hclass : ∀ char, char.isDigit → accepts char = accepts '0') (char : Char) :
    accepts (zeroDigit char) = accepts char := by
  by_cases hdigit : char.isDigit
  · simp [zeroDigit, hdigit, hclass char hdigit]
  · simp [zeroDigit, hdigit]

theorem isBlank_zeroDigit (char : Char) : isBlank (zeroDigit char) = isBlank char :=
  accepts_zeroDigit (fun _ hdigit =>
    isBlank_eq_false_of_isAlphanum (isAlphanum_of_isDigit hdigit)) char

theorem blind_lone {word : Peg Rule} (hword : word.Blind zeroDigit) :
    (lone word).Blind zeroDigit :=
  ⟨hword, accepts_zeroDigit fun _ => isAlphanum_of_isDigit⟩

theorem blind_oneOf {items : List (Peg Rule)} (hitems : ∀ item ∈ items, item.Blind zeroDigit) :
    (oneOf items).Blind zeroDigit := by
  induction items with
  | nil => trivial
  | cons item items ih =>
      obtain ⟨hitem, hothers⟩ := List.forall_mem_cons.mp hitems
      cases items with
      | nil => exact hitem
      | cons => exact ⟨hitem, ih hothers⟩

theorem blind_word {word : List Char} (hword : word.all (! ·.isDigit)) :
    (Peg.word word : Peg Rule).Blind zeroDigit := by
  intro char hchar
  exact zeroDigit_eq_iff (by simpa using List.all_eq_true.mp hword char hchar)

/-- No word of the grammar has a digit in it, and no class in it tells digits apart. -/
theorem blind_zeroDigit : language.Blind zeroDigit where
  body rule := by
    change (body rule).Blind zeroDigit
    have hsign : ∀ char : Char, char.isDigit = false → (sign char).Blind zeroDigit :=
      fun char hchar => blind_word (by simpa using hchar)
    cases rule with
    | compare op => cases op <;> exact blind_word (by decide)
    | arith op => cases op <;> exact blind_word (by decide)
    | bool value => cases value <;> exact blind_lone (blind_word (by decide))
    | reserved =>
        refine blind_lone (blind_oneOf fun item hitem => ?_)
        obtain ⟨word, hword, rfl⟩ := List.mem_map.mp hitem
        have hwords : ∀ word ∈ reservedWords, word.all (! ·.isDigit) := by decide
        exact blind_word (hwords word hword)
    | printWord => exact blind_lone (hsign 'p' rfl)
    | int => exact ⟨accepts_zeroDigit fun _ => id, accepts_zeroDigit fun _ => id⟩
    | str =>
        refine ⟨hsign '"' rfl, @accepts_zeroDigit (· ≠ '"') fun char hdigit => ?_, hsign '"' rfl⟩
        have hne : char ≠ '"' := by
          rintro rfl
          cases hdigit
        simp [hne]
    | ident =>
        refine ⟨trivial, accepts_zeroDigit fun char hdigit => ?_,
          accepts_zeroDigit fun _ => isAlphanum_of_isDigit⟩
        refine Bool.eq_false_iff.mpr fun halpha => ?_
        rw [isDigit_eq_false_of_isAlpha halpha] at hdigit
        cases hdigit
    | _ =>
        simp [body, all, oneOf, opt, comparison, arithmetic, operand, Peg.finish, Peg.Blind,
          zeroDigit_eq_iff, hsign]
  blank := isBlank_zeroDigit

/-- All digits of a text are zeros, so every integer literal in it is a word. -/
def ZeroDigits (text : List Char) : Prop := ∀ char ∈ text, char.isDigit → char = '0'

theorem zeroDigits_map (text : List Char) : ZeroDigits (text.map zeroDigit) := by
  intro char hchar hdigit
  obtain ⟨other, -, rfl⟩ := List.mem_map.mp hchar
  by_cases hother : other.isDigit
  · simp [zeroDigit, hother]
  · simp [zeroDigit, hother] at hdigit

theorem integer_of_zeros {digits rest input : List Char} (hzero : ZeroDigits digits)
    (hrun : WholeRun Char.isDigit input digits rest) (hnil : digits ≠ []) :
    Integer 0 input rest := by
  refine ⟨input, digits, .refl _, hrun, hnil, ?_⟩
  have hdigits := hrun.accepts_run
  clear hrun hnil
  induction digits with
  | nil => rfl
  | cons head digits ih =>
      obtain ⟨hhead, htail⟩ := List.forall_mem_cons.mp hdigits
      obtain ⟨hzeroHead, hzeroTail⟩ := List.forall_mem_cons.mp hzero
      rw [hzeroHead hhead, Nat.ofDigitChars_cons]
      exact ih hzeroTail htail

end PlZero
