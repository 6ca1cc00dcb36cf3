/-! # Machine words

The integers of the language are those of 64 bits with a sign.
-/

namespace PlZero

/-- An integer is in the range of a word. -/
def FitsWord (value : Int) : Prop :=
  Int64.minValue.toInt ≤ value ∧ value ≤ Int64.maxValue.toInt

/-- Either sign is settled by one comparison of natural numbers. -/
instance : (value : Int) → Decidable (FitsWord value)
  | .ofNat number => decidable_of_iff (number ≤ 0x7fffffffffffffff) <| by
      rw [FitsWord, Int64.toInt_minValue, Int64.toInt_maxValue, Int.ofNat_eq_natCast]
      omega
  | .negSucc number => decidable_of_iff (number ≤ 0x7fffffffffffffff) <| by
      rw [FitsWord, Int64.toInt_minValue, Int64.toInt_maxValue, Int.negSucc_eq]
      omega

/-- The word of an integer in range. -/
def wordOfInt? (value : Int) : Option Int64 :=
  if FitsWord value then some (Int64.ofInt value) else none

theorem FitsWord.toInt_ofInt {value : Int} (hfits : FitsWord value) :
    (Int64.ofInt value).toInt = value := by
  rw [FitsWord, Int64.toInt_minValue, Int64.toInt_maxValue] at hfits
  exact Int64.toInt_ofInt_of_le hfits.1 (Int.lt_of_le_sub_one hfits.2)

theorem fitsWord_toInt (word : Int64) : FitsWord word.toInt :=
  ⟨word.minValue_le_toInt, word.toInt_le⟩

theorem wordOfInt?_toInt (word : Int64) : wordOfInt? word.toInt = some word := by
  rw [wordOfInt?, if_pos (fitsWord_toInt word), Int64.ofInt_toInt]

end PlZero
