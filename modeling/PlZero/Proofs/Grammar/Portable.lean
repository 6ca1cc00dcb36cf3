import Mathlib.Logic.Relation
import PlZero.Proofs.Grammar.Runs

/-! # Phrases in front of another text

A phrase looks no further than at the character behind it, and it never goes on over a blank. So
it stays a phrase if the text behind it is replaced by one that starts with the same character or
with a blank.
-/

namespace PlZero

/-- `other` starts as `rest` does, or with a blank, or not at all. -/
def StartsLike (rest other : List Char) : Prop :=
  ∀ char ∈ other.head?, char ∈ rest.head? ∨ isBlank char

namespace StartsLike

variable {rest other : List Char}

theorem nil (rest : List Char) : StartsLike rest [] := by
  simp [StartsLike]

theorem blank (rest : List Char) {char : Char} (hchar : isBlank char) (other : List Char) :
    StartsLike rest (char :: other) := by
  intro head hhead
  obtain rfl : char = head := by simpa using hhead
  exact .inr hchar

/-- A common start makes two texts start alike. -/
theorem append (hlike : StartsLike rest other) (start : List Char) :
    StartsLike (start ++ rest) (start ++ other) := by
  cases start with
  | nil => exact hlike
  | cons head start =>
      intro char hchar
      exact .inl hchar

end StartsLike

/-- A relation between a text and what follows its start also holds if something else follows
that starts alike. -/
def Portable (relates : List Char → List Char → Prop) (input rest : List Char) : Prop :=
  ∃ used, input = used ++ rest ∧ ∀ other, StartsLike rest other → relates (used ++ other) other

namespace Portable

variable {first next relates : List Char → List Char → Prop} {input middle rest : List Char}

theorem mono (hportable : Portable first input rest)
    (himp : ∀ input rest, first input rest → next input rest) : Portable next input rest := by
  obtain ⟨used, hinput, hused⟩ := hportable
  exact ⟨used, hinput, fun other hlike => himp _ _ (hused other hlike)⟩

theorem nil (hrelates : ∀ rest, relates rest rest) : Portable relates rest rest :=
  ⟨[], rfl, fun other _ => hrelates other⟩

/-- What stands between two places decides what the first of two phrases has behind it, unless
nothing stands there. -/
theorem comp (hfirst : Portable first input middle) (hnext : Portable next middle rest) :
    Portable (Relation.Comp first next) input rest := by
  obtain ⟨used, rfl, hused⟩ := hfirst
  obtain ⟨more, rfl, hmore⟩ := hnext
  refine ⟨used ++ more, (List.append_assoc _ _ _).symm, fun other hlike => ?_⟩
  rw [List.append_assoc]
  exact ⟨more ++ other, hused _ (hlike.append more), hmore other hlike⟩

end Portable

theorem Symbol.portable {text : String} {input rest : List Char}
    (hsymbol : Symbol text input rest) : Portable (Symbol text) input rest := by
  obtain ⟨blanks, hblanks, rfl⟩ := hsymbol
  refine ⟨blanks ++ text.toList, (List.append_assoc _ _ _).symm, fun other _ => ?_⟩
  exact ⟨blanks, hblanks, List.append_assoc _ _ _⟩

theorem Quoted.portable {text : String} {input rest : List Char}
    (hquoted : Quoted text input rest) : Portable (Quoted text) input rest := by
  obtain ⟨hquote, blanks, hblanks, rfl⟩ := hquoted
  refine ⟨blanks ++ ('"' :: text.toList ++ ['"']), by simp, fun other _ => ?_⟩
  exact ⟨hquote, blanks, hblanks, by simp⟩

/-- A run of characters that are no blanks ends in front of a blank. -/
theorem WholeRun.append {accepts : Char → Bool} {input run rest : List Char}
    (hrun : WholeRun accepts input run rest) (hblank : ∀ char, isBlank char → accepts char = false)
    {other : List Char} (hlike : StartsLike rest other) :
    WholeRun accepts (run ++ other) run other := by
  refine ⟨rfl, hrun.accepts_run, fun char hchar => ?_⟩
  rcases hlike char hchar with hsame | hother
  · exact hrun.stops char hsame
  · exact hblank char hother

theorem isDigit_eq_false_of_isBlank {char : Char} (hblank : isBlank char) :
    char.isDigit = false := by
  refine Bool.eq_false_iff.mpr fun hdigit => ?_
  rw [isBlank_eq_false_of_isAlphanum (isAlphanum_of_isDigit hdigit)] at hblank
  cases hblank

theorem LoneWord.portable {word : String} {input rest : List Char}
    (hword : LoneWord word input rest) : Portable (LoneWord word) input rest := by
  obtain ⟨start, ⟨blanks, hblanks, rfl⟩, hrun⟩ := hword
  refine ⟨blanks ++ word.toList, by rw [hrun.eq_append, List.append_assoc], fun other hlike => ?_⟩
  rw [List.append_assoc]
  exact ⟨_, ⟨blanks, hblanks, rfl⟩, hrun.append (fun _ => isAlphanum_eq_false_of_isBlank) hlike⟩

theorem Integer.portable {value : Int64} {input rest : List Char}
    (hint : Integer value input rest) : Portable (Integer value) input rest := by
  obtain ⟨start, digits, ⟨blanks, hblanks, rfl⟩, hrun, hnil, hvalue⟩ := hint
  refine ⟨blanks ++ digits, by rw [hrun.eq_append, List.append_assoc], fun other hlike => ?_⟩
  rw [List.append_assoc]
  exact ⟨_, digits, ⟨blanks, hblanks, rfl⟩,
    hrun.append (fun _ => isDigit_eq_false_of_isBlank) hlike, hnil, hvalue⟩

end PlZero
