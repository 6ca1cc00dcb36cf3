/-! # Literals of a text

Quotes come in pairs, from left to right, and what stands between the two quotes of a pair is a
literal. What stands outside of literals can be changed without changing them, as long as it has
no quotes.
-/

namespace PlZero.Text

/-- The literals from a place on. In front of the place a literal may have begun, with the
characters given; it counts only if it is closed. -/
def literalsFrom : Option (List Char) → List Char → List (List Char)
  | _, [] => []
  | none, char :: rest => literalsFrom (if char = '"' then some [] else none) rest
  | some text, char :: rest =>
      if char = '"' then text :: literalsFrom none rest
      else literalsFrom (some (text ++ [char])) rest

/-- The literals of a text. -/
def literals (chars : List Char) : List (List Char) := literalsFrom none chars

/-- The literal that some characters leave open, if one may be open in front of them. -/
def openAfter : Option (List Char) → List Char → Option (List Char)
  | started, [] => started
  | none, char :: rest => openAfter (if char = '"' then some [] else none) rest
  | some text, char :: rest =>
      openAfter (if char = '"' then none else some (text ++ [char])) rest

variable {started : Option (List Char)} {text before after rest : List Char}

theorem literalsFrom_append (started : Option (List Char)) (before rest : List Char) :
    literalsFrom started (before ++ rest) =
      literalsFrom started before ++ literalsFrom (openAfter started before) rest := by
  induction before generalizing started with
  | nil => cases started <;> rfl
  | cons char before ih =>
      rcases started with _ | text
      · rw [List.cons_append, literalsFrom, literalsFrom, openAfter, ih]
      · rw [List.cons_append, literalsFrom, literalsFrom, openAfter]
        split
        · rw [ih, List.cons_append]
        · rw [ih]

/-- A literal is open behind an odd number of quotes, if none was open in front of them. -/
theorem isSome_openAfter (started : Option (List Char)) (before : List Char) :
    (openAfter started before).isSome = (started.isSome != decide (before.count '"' % 2 = 1)) := by
  induction before generalizing started with
  | nil => cases started <;> rfl
  | cons char before ih =>
      by_cases hquote : char = '"'
      · have hparity : (before.count '"' + 1) % 2 = 1 ↔ ¬ before.count '"' % 2 = 1 := by omega
        cases started <;> simp [openAfter, ih, hquote, hparity, -Nat.mod_two_not_eq_one]
      · cases started <;> simp [openAfter, ih, hquote]

theorem literals_append (heven : before.count '"' % 2 = 0) (rest : List Char) :
    literals (before ++ rest) = literals before ++ literals rest := by
  have hclosed : openAfter none before = none := by
    rw [← Option.not_isSome_iff_eq_none, isSome_openAfter]
    simp [heven]
  rw [literals, literalsFrom_append, hclosed, literals, literals]

theorem literalsFrom_of_not_mem (started : Option (List Char)) (hquote : '"' ∉ text) :
    literalsFrom started text = [] ∧ openAfter started text = started.map (· ++ text) := by
  induction text generalizing started with
  | nil => cases started <;> simp [literalsFrom, openAfter]
  | cons char text ih =>
      obtain ⟨hchar, htext⟩ := List.ne_and_not_mem_of_not_mem_cons hquote
      cases started <;> simp [literalsFrom, openAfter, hchar.symm, ih _ htext]

/-- Characters that are no quotes belong to no literal that is not open. -/
theorem literals_append_of_not_mem (hquote : '"' ∉ before) (rest : List Char) :
    literals (before ++ rest) = literals rest := by
  obtain ⟨hnone, hopen⟩ := literalsFrom_of_not_mem none hquote
  rw [literals, literalsFrom_append, hnone, hopen]
  rfl

theorem literals_quoted (hquote : '"' ∉ text) (rest : List Char) :
    literals ('"' :: text ++ '"' :: rest) = text :: literals rest := by
  obtain ⟨hnone, hopen⟩ := literalsFrom_of_not_mem (some []) hquote
  rw [literals, List.cons_append, literalsFrom, if_pos rfl, literalsFrom_append, hnone, hopen]
  rfl

theorem exists_of_mem_literalsFrom {started : Option (List Char)} {text source : List Char}
    (hstarted : ∀ begun ∈ started, '"' ∉ begun) (htext : text ∈ literalsFrom started source) :
    ∃ before after, (started.map ('"' :: ·)).getD [] ++ source =
        before ++ ('"' :: text ++ '"' :: after) ∧ before.count '"' % 2 = 0 ∧ '"' ∉ text := by
  induction source generalizing started with
  | nil => cases started <;> cases htext
  | cons char rest ih =>
      by_cases hquote : char = '"'
      · subst hquote
        cases started with
        | none => exact ih (by simp) htext
        | some begun =>
            have hbegun : '"' ∉ begun := hstarted begun rfl
            rcases List.mem_cons.mp htext with rfl | hlater
            · exact ⟨[], rest, by simp, by simp, hbegun⟩
            · -- The literal is one of those behind the quote that closes the first one.
              obtain ⟨before, after, heq, heven, hfree⟩ := ih (by simp) hlater
              have hcount : ('"' :: begun ++ '"' :: before).count '"' = before.count '"' + 2 := by
                simp [List.count_eq_zero.mpr hbegun]
              exact ⟨'"' :: begun ++ '"' :: before, after, by simpa using heq, by omega, hfree⟩
      · cases started with
        | none =>
            rw [literalsFrom, if_neg hquote] at htext
            obtain ⟨before, after, heq, heven, hfree⟩ := ih (by simp) htext
            exact ⟨char :: before, after, by simpa using heq, by simpa [hquote] using heven, hfree⟩
        | some begun =>
            rw [literalsFrom, if_neg hquote] at htext
            have hbegun : '"' ∉ begun ++ [char] := by
              simpa [Ne.symm hquote] using hstarted begun rfl
            simpa using ih (by simpa using hbegun) htext

/-- A literal stands between two quotes, behind an even number of others. -/
theorem exists_of_mem_literals {text source : List Char} (htext : text ∈ literals source) :
    ∃ before after, source = before ++ ('"' :: text ++ '"' :: after) ∧
      before.count '"' % 2 = 0 ∧ '"' ∉ text :=
  exists_of_mem_literalsFrom (by simp) htext

end PlZero.Text
