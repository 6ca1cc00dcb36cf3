import Mathlib.Algebra.Group.Nat.Defs
import PlZero.Proofs.Grammar.Runs

/-! # Integers of a text

Digits outside of quotes are an integer as far as they go, unless they stand behind a letter: then
they belong to a name. The integers of a text are listed from left to right, with their places.
-/

namespace PlZero.Text

/-- The number that digits stand for. -/
def decimal : List Char → Nat
  | [] => 0
  | digit :: rest => (digit.toNat - '0'.toNat) * 10 ^ rest.length + decimal rest

theorem ofDigitChars_eq_decimal (digits : List Char) :
    Nat.ofDigitChars 10 digits 0 = decimal digits := by
  induction digits with
  | nil => rfl
  | cons digit rest ih =>
      rw [Nat.ofDigitChars_cons, Nat.ofDigitChars_eq_ofDigitChars_zero, ih, decimal, Nat.mul_zero,
        Nat.zero_add, Nat.mul_comm]

/-- Zeros in front of digits make no difference. -/
theorem decimal_zeros_append (count : Nat) (digits : List Char) :
    decimal (List.replicate count '0' ++ digits) = decimal digits := by
  induction count with
  | zero => rfl
  | succ count ih => simp [List.replicate_succ, decimal, ih]

/-- An integer stands at a place of a text: all digits from there on, outside of quotes, and not
behind a letter or a digit. -/
def IntegerAt (text : List Char) (offset : Nat) (digits : List Char) : Prop :=
  ∃ before after rest, text = before ++ after ∧ before.length = offset ∧
    before.count '"' % 2 = 0 ∧ (∀ char ∈ before.getLast?, char.isAlphanum = false) ∧
    WholeRun Char.isDigit after digits rest ∧ digits ≠ []

/-- Integers with their places, from left to right, are all that a text has. -/
structure ListsIntegers (text : List Char) (literals : List (Nat × List Char)) : Prop where
  ordered : literals.Pairwise fun first next => first.1 < next.1
  mem_iff : ∀ offset digits, (offset, digits) ∈ literals ↔ IntegerAt text offset digits

/-- The integers from a place on, which may be between quotes, or behind a letter or a digit. -/
def integersFrom (quoted glued : Bool) (offset : Nat) : List Char → List (Nat × List Char)
  | [] => []
  | char :: rest =>
      let others := integersFrom (quoted != decide (char = '"')) char.isAlphanum (offset + 1) rest
      if char.isDigit && !quoted && !glued then
        (offset, (char :: rest).takeWhile Char.isDigit) :: others
      else others

/-- The integers of a text. -/
def integers (text : List Char) : List (Nat × List Char) := integersFrom false false 0 text

variable {quoted glued : Bool} {offset place : Nat} {text word digits rest : List Char}
  {char : Char}

/-! ## What is listed -/

theorem le_of_mem_integersFrom (hmem : (place, digits) ∈ integersFrom quoted glued offset text) :
    offset ≤ place := by
  induction text generalizing quoted glued offset with
  | nil => cases hmem
  | cons char text ih =>
      rw [integersFrom] at hmem
      split at hmem
      next =>
        rcases List.mem_cons.mp hmem with heq | hmem
        · exact Nat.le_of_eq (Prod.mk.inj heq).1.symm
        · exact Nat.le_of_succ_le (ih hmem)
      next => exact Nat.le_of_succ_le (ih hmem)

theorem pairwise_integersFrom (quoted glued : Bool) (offset : Nat) (text : List Char) :
    (integersFrom quoted glued offset text).Pairwise fun first next => first.1 < next.1 := by
  induction text generalizing quoted glued offset with
  | nil => exact .nil
  | cons char text ih =>
      rw [integersFrom]
      split
      next => exact .cons (fun _ hmem => le_of_mem_integersFrom hmem) (ih _ _ _)
      next => exact ih _ _ _

/-- Whether the place behind some characters is between quotes. -/
def quotedAfter (quoted : Bool) (before : List Char) : Bool :=
  quoted != decide (before.count '"' % 2 = 1)

/-- Whether the place behind some characters is behind a letter or a digit. -/
def gluedAfter (glued : Bool) (before : List Char) : Bool :=
  (before.getLast?.map Char.isAlphanum).getD glued

theorem quotedAfter_cons (quoted : Bool) (char : Char) (before : List Char) :
    quotedAfter quoted (char :: before) = quotedAfter (quoted != decide (char = '"')) before := by
  have hparity : (before.count '"' + 1) % 2 = 1 ↔ ¬ before.count '"' % 2 = 1 := by omega
  by_cases hquote : char = '"'
  · simp [quotedAfter, hquote, hparity, -Nat.mod_two_not_eq_one]
  · simp [quotedAfter, hquote]

theorem gluedAfter_cons (glued : Bool) (char : Char) (before : List Char) :
    gluedAfter glued (char :: before) = gluedAfter char.isAlphanum before := by
  unfold gluedAfter
  rw [List.getLast?_cons]
  cases before.getLast? <;> rfl

theorem add_length_cons (offset : Nat) (char : Char) (text : List Char) :
    offset + (char :: text).length = offset + 1 + text.length := by
  rw [List.length_cons, Nat.add_right_comm, Nat.add_assoc]

theorem mem_integersFrom_cons (hmem : (place, digits) ∈
    integersFrom (quoted != decide (char = '"')) char.isAlphanum (offset + 1) rest) :
    (place, digits) ∈ integersFrom quoted glued offset (char :: rest) := by
  rw [integersFrom]
  split
  next => exact List.mem_cons_of_mem _ hmem
  next => exact hmem

theorem mem_integersFrom_iff :
    (place, digits) ∈ integersFrom quoted glued offset text ↔
      ∃ before after rest, text = before ++ after ∧ place = offset + before.length ∧
        quotedAfter quoted before = false ∧ gluedAfter glued before = false ∧
        WholeRun Char.isDigit after digits rest ∧ digits ≠ [] := by
  constructor
  · intro hmem
    induction text generalizing quoted glued offset with
    | nil => cases hmem
    | cons char text ih =>
        -- What is listed behind the first character has it in front, and may have more.
        have hlater : (place, digits) ∈
            integersFrom (quoted != decide (char = '"')) char.isAlphanum (offset + 1) text →
            ∃ before after rest, char :: text = before ++ after ∧ place = offset + before.length ∧
              quotedAfter quoted before = false ∧ gluedAfter glued before = false ∧
              WholeRun Char.isDigit after digits rest ∧ digits ≠ [] := by
          intro hmem
          obtain ⟨before, after, rest, rfl, rfl, hquoted, hglued, hrun⟩ := ih hmem
          rw [← quotedAfter_cons] at hquoted
          rw [← gluedAfter_cons glued] at hglued
          exact ⟨char :: before, after, rest, rfl, (add_length_cons offset char before).symm,
            hquoted, hglued, hrun⟩
        rw [integersFrom] at hmem
        split at hmem
        next hhead =>
          rcases List.mem_cons.mp hmem with heq | hmem
          · simp only [Bool.and_eq_true, Bool.not_eq_true'] at hhead
            cases heq
            refine ⟨[], char :: text, _, rfl, rfl, ?_, hhead.2, wholeRun_takeWhile _ _, ?_⟩
            · simp [quotedAfter, hhead.1.2]
            · simp [hhead.1.1]
          · exact hlater hmem
        next => exact hlater hmem
  · rintro ⟨before, after, rest, rfl, rfl, hquoted, hglued, hrun, hnil⟩
    induction before generalizing quoted glued offset with
    | nil =>
        have hquoted : quoted = false := by simpa [quotedAfter] using hquoted
        have hglued : glued = false := hglued
        cases digits with
        | nil => exact absurd rfl hnil
        | cons digit digits =>
            have hdigit := hrun.accepts_run digit List.mem_cons_self
            have htake := hrun.takeWhile_eq
            rw [hrun.eq_append, List.cons_append] at htake ⊢
            simp [integersFrom, hdigit, hquoted, hglued, htake]
    | cons char before ih =>
        rw [quotedAfter_cons] at hquoted
        rw [gluedAfter_cons] at hglued
        have hmem : (offset + 1 + before.length, digits) ∈
            integersFrom (quoted != decide (char = '"')) char.isAlphanum (offset + 1)
              (before ++ after) := ih hquoted hglued
        rw [add_length_cons]
        exact mem_integersFrom_cons hmem

/-- The list of the integers of a text has all of them. -/
theorem listsIntegers (text : List Char) : ListsIntegers text (integers text) where
  ordered := pairwise_integersFrom false false 0 text
  mem_iff offset digits := by
    have hquoted : ∀ before : List Char,
        quotedAfter false before = false ↔ before.count '"' % 2 = 0 := by
      intro before
      simp [quotedAfter]
    have hglued : ∀ before : List Char, gluedAfter false before = false ↔
        ∀ char ∈ before.getLast?, char.isAlphanum = false := by
      intro before
      unfold gluedAfter
      cases before.getLast? <;> simp
    unfold integers IntegerAt
    simp only [mem_integersFrom_iff, hquoted, hglued, Nat.zero_add, eq_comm]

/-! ## What is passed over -/

/-- Whatever stands in front of a place matters only if a digit stands behind it. -/
theorem integersFrom_of_head (hhead : ∀ char ∈ text.head?, char.isDigit = false) :
    integersFrom quoted glued offset text = integersFrom quoted false offset text := by
  cases text with
  | nil => rfl
  | cons char text => simp [integersFrom, hhead char rfl]

theorem isDigit_eq_false_of_isAlphanum (halphanum : char.isAlphanum = false) :
    char.isDigit = false := by
  unfold Char.isAlphanum at halphanum
  exact (Bool.or_eq_false_iff.mp halphanum).2

/-- Whether a character belongs to no word, to no number and to no text between quotes. -/
def isNeutral (char : Char) : Bool := !char.isAlphanum && char ≠ '"'

theorem isNeutral_of_isBlank (hblank : isBlank char) : isNeutral char := by
  have hquote : char ≠ '"' := by
    rintro rfl
    cases hblank
  simp [isNeutral, isAlphanum_eq_false_of_isBlank hblank, hquote]

theorem integersFrom_cons (hneutral : isNeutral char) :
    integersFrom false glued offset (char :: rest) =
      integersFrom false false (offset + 1) rest := by
  unfold isNeutral at hneutral
  rw [Bool.and_eq_true, Bool.not_eq_true', decide_eq_true_iff] at hneutral
  have hdigit := isDigit_eq_false_of_isAlphanum hneutral.1
  simp [integersFrom, hneutral, hdigit]

/-- Signs and blanks have no integers. -/
theorem integersFrom_signs (hsigns : word.all isNeutral) :
    integersFrom false false offset (word ++ rest) =
      integersFrom false false (offset + word.length) rest := by
  induction word generalizing offset with
  | nil => rfl
  | cons char word ih =>
      rw [List.all_cons, Bool.and_eq_true] at hsigns
      rw [List.cons_append, integersFrom_cons hsigns.1, ih hsigns.2, add_length_cons]

/-- Letters and digits behind a letter or a digit have no integers. -/
theorem integersFrom_glued (hword : ∀ char ∈ word, char.isAlphanum) :
    integersFrom false true offset (word ++ rest) =
      integersFrom false true (offset + word.length) rest := by
  induction word generalizing offset with
  | nil => rfl
  | cons char word ih =>
      obtain ⟨hchar, hword⟩ := List.forall_mem_cons.mp hword
      have hquote : char ≠ '"' := by
        rintro rfl
        cases hchar
      rw [add_length_cons, ← ih hword]
      simp [integersFrom, hchar, hquote]

/-- Letters and digits from a letter on have no integers. -/
theorem integersFrom_word (hhead : char.isAlpha) (hword : ∀ char ∈ word, char.isAlphanum) :
    integersFrom false false offset (char :: word ++ rest) =
      integersFrom false true (offset + (char :: word).length) rest := by
  have hglued : ∀ other ∈ char :: word, other.isAlphanum :=
    List.forall_mem_cons.mpr ⟨isAlphanum_of_isAlpha hhead, hword⟩
  rw [← integersFrom_glued hglued, @integersFrom_of_head false true]
  simpa using isDigit_eq_false_of_isAlpha hhead

/-- Digits that all belong together are one integer. -/
theorem integersFrom_digits (hrun : WholeRun Char.isDigit text digits rest) (hnil : digits ≠ []) :
    integersFrom false false offset text =
      (offset, digits) :: integersFrom false false (offset + digits.length) rest := by
  cases digits with
  | nil => exact absurd rfl hnil
  | cons digit digits =>
      obtain ⟨hdigit, hdigits⟩ := List.forall_mem_cons.mp hrun.accepts_run
      have hglued : ∀ char ∈ digits, char.isAlphanum :=
        fun char hchar => isAlphanum_of_isDigit (hdigits char hchar)
      have hquote : digit ≠ '"' := by
        rintro rfl
        cases hdigit
      have htake := hrun.takeWhile_eq
      rw [hrun.eq_append, List.cons_append] at htake ⊢
      rw [add_length_cons, ← @integersFrom_of_head false true _ _ hrun.stops,
        ← integersFrom_glued hglued]
      simp [integersFrom, hdigit, hquote, htake, isAlphanum_of_isDigit]

theorem integersFrom_closed (hquote : '"' ∉ text) :
    integersFrom true glued offset (text ++ '"' :: rest) =
      integersFrom false false (offset + text.length + 1) rest := by
  induction text generalizing glued offset with
  | nil =>
      have halphanum : '"'.isAlphanum = false := by decide
      simp [integersFrom, halphanum]
  | cons char text ih =>
      obtain ⟨hchar, htext⟩ := List.ne_and_not_mem_of_not_mem_cons hquote
      rw [add_length_cons, ← @ih char.isAlphanum _ htext]
      simp [integersFrom, hchar.symm]

/-- A text between two quotes has no integers. -/
theorem integersFrom_quoted (hquote : '"' ∉ text) :
    integersFrom false false offset ('"' :: text ++ ['"'] ++ rest) =
      integersFrom false false (offset + ('"' :: text ++ ['"']).length) rest := by
  have hdigit : '"'.isDigit = false := by decide
  have hlength : offset + ('"' :: text ++ ['"']).length = offset + 1 + text.length + 1 := by
    simp [Nat.add_right_comm, ← Nat.add_assoc]
  rw [hlength, ← @integersFrom_closed false _ _ _ hquote]
  simp [integersFrom, hdigit]

end PlZero.Text
