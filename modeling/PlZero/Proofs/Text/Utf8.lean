import Mathlib.Tactic.SplitIfs

/-! # The order of UTF-8 encodings

Texts are ordered by the code points of their characters, and so are the bytes of their UTF-8
encodings: of two characters the lesser one has the lesser encoding, whatever follows. Encodings
of different lengths are told apart by their first bytes, and those of one length by the digits of
the code point to the base 64.
-/

namespace PlZero.Text

/-- The bytes of the UTF-8 encoding of a text. -/
def utf8 (text : String) : List UInt8 := text.toUTF8.data.toList

theorem utf8_eq_flatMap (text : String) :
    utf8 text = text.toList.flatMap String.utf8EncodeChar := by
  have hencode : text.toUTF8 = (text.toList.flatMap String.utf8EncodeChar).toByteArray :=
    String.utf8Encode_toList.symm
  rw [utf8, hencode, List.toList_data_toByteArray]

theorem ofNat_cons_lt_iff {first next : Nat} {more other : List UInt8} (hfirst : first < 256)
    (hnext : next < 256) :
    UInt8.ofNat first :: more < UInt8.ofNat next :: other ↔
      first < next ∨ first = next ∧ more < other := by
  rw [List.cons_lt_cons_iff, UInt8.ofNat_lt_iff_lt hfirst hnext, ← UInt8.toNat_inj,
    UInt8.toNat_ofNat_of_lt' hfirst, UInt8.toNat_ofNat_of_lt' hnext]

/-- Of two numbers with different digits the first one that differs decides. -/
theorem div_lt_or_mod_lt {first next : Nat} (hlt : first < next) :
    first / 64 < next / 64 ∨ first / 64 = next / 64 ∧ first % 64 < next % 64 := by
  omega

theorem utf8EncodeChar_append_lt {first next : Char} (hlt : first < next)
    (more other : List UInt8) :
    String.utf8EncodeChar first ++ more < String.utf8EncodeChar next ++ other := by
  have hval : first.val.toNat < next.val.toNat := hlt
  have hvalid : next.val.toNat < 0x110000 := by
    rcases next.valid with hlow | hhigh <;> omega
  unfold String.utf8EncodeChar
  dsimp only
  generalize first.val.toNat = first, next.val.toNat = next at hval hvalid
  by_cases hlong : 0xffff < first
  · -- Both take four bytes, which hold four digits.
    simp only [if_neg (show ¬ first ≤ 127 by omega), if_neg (show ¬ first ≤ 2047 by omega),
      if_neg (show ¬ first ≤ 65535 by omega), if_neg (show ¬ next ≤ 127 by omega),
      if_neg (show ¬ next ≤ 2047 by omega), if_neg (show ¬ next ≤ 65535 by omega)]
    simp (disch := omega) only [List.cons_append, ofNat_cons_lt_iff]
    rcases div_lt_or_mod_lt hval with hval | hlast
    · rcases div_lt_or_mod_lt hval with hval | hthird
      · rcases div_lt_or_mod_lt hval with hlead | hsecond <;> omega
      · omega
    · omega
  · split_ifs <;> simp (disch := omega) only [List.cons_append, ofNat_cons_lt_iff] <;> omega

theorem flatMap_utf8EncodeChar_lt {chars others : List Char} (hlt : chars < others) :
    chars.flatMap String.utf8EncodeChar < others.flatMap String.utf8EncodeChar := by
  induction hlt with
  | @nil head rest =>
      obtain ⟨byte, bytes, hbytes⟩ :=
        List.exists_cons_of_ne_nil (@String.utf8EncodeChar_ne_nil head)
      rw [List.flatMap_nil, List.flatMap_cons, hbytes]
      exact .nil
  | rel hchar => exact utf8EncodeChar_append_lt hchar _ _
  | cons _ ih => exact List.append_left_lt ih

/-- Texts are in the order of the bytes of their encodings. -/
theorem utf8_lt {text other : String} (hlt : text < other) : utf8 text < utf8 other := by
  have hchars : text.toList < other.toList := hlt
  rw [utf8_eq_flatMap, utf8_eq_flatMap]
  exact flatMap_utf8EncodeChar_lt hchars

end PlZero.Text
