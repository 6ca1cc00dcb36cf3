import PlZero.Proofs.Parse

/-! # Rendering is inverse to parsing

The tree of an expression may hold more than a text can say: negative literals, strings with
quotes, and names that are none. Exactly the trees without them are read back from their own
text, and no text gives any other tree.
-/

namespace PlZero.Expr

/-- The literals and names of a tree can be written down. -/
def WellFormed : Expr → Prop
  | .binary left _ right => left.WellFormed ∧ right.WellFormed
  | .not operand => operand.WellFormed
  | .ident name => IsName name
  | .int value => 0 ≤ value.toInt
  | .bool _ => True
  | .str text => '"' ∉ text.toList

theorem Derives.wellFormed {tier : Tier} {input rest : List Char} {value : Expr}
    (hderives : Derives tier input value rest) : value.WellFormed := by
  induction hderives with
  | ofSum _ ih | ofProduct _ ih | ofNegation _ ih | ofOperand _ ih => exact ih
  | compare _ _ _ ihleft ihright | add _ _ _ _ ihleft ihright
  | multiply _ _ _ _ ihleft ihright => exact ⟨ihleft, ihright⟩
  | not _ _ ih | parens _ _ _ ih => exact ih
  | int hint =>
      obtain ⟨start, digits, -, -, -, hvalue⟩ := hint
      rw [WellFormed, hvalue]
      exact Int.natCast_nonneg _
  | str hstr => exact hstr.1
  | bool => trivial
  | ident hname => exact hname.1

/-- An operator between two tight operands, of whatever tier it is. -/
theorem derives_binary {input middle next rest : List Char} {left right : Expr} {op : BinaryOp}
    (hleft : Derives .negation input left middle) (hsymbol : Symbol op.symbol middle next)
    (hright : Derives .negation next right rest) :
    Derives .comparison input (.binary left op right) rest := by
  cases op with
  | compare op =>
      exact .compare (.ofSum (.ofProduct (.ofNegation hleft))) hsymbol
        (.ofProduct (.ofNegation hright))
  | arith op =>
      obtain hpower | hpower := op.power_eq_one_or_two
      · exact .ofSum (.add (ArithOp.power_eq_one_iff.mp hpower) (.ofProduct (.ofNegation hleft))
          hsymbol (.ofNegation hright))
      · exact .ofSum (.ofProduct (.multiply (ArithOp.power_eq_two_iff.mp hpower)
          (.ofNegation hleft) hsymbol hright))

theorem integer_render {value : Int64} (hvalue : 0 ≤ value.toInt) {rest : List Char}
    (hrest : ∀ char ∈ rest.head?, char.isAlphanum = false) :
    Integer value ((toString value.toInt).toList ++ rest) rest := by
  obtain ⟨number, hnumber⟩ := Int.eq_ofNat_of_zero_le hvalue
  have htext : (toString value.toInt).toList = Nat.toDigits 10 number := by
    rw [hnumber]
    exact Nat.toList_repr
  rw [htext]
  refine ⟨_, _, .refl _, ⟨rfl, fun char hchar => ?_, fun char hchar => ?_⟩, Nat.toDigits_ne_nil, ?_⟩
  · exact Nat.isDigit_of_mem_toDigits (by decide) (by decide) hchar
  · have halphanum := hrest char hchar
    simp_all [Char.isAlphanum]
  · rw [Nat.ofDigitChars_ten_toDigits, hnumber]

theorem loneWord_append {word : String} (hword : word.toList.all Char.isAlphanum)
    {rest : List Char} (hrest : ∀ char ∈ rest.head?, char.isAlphanum = false) :
    LoneWord word (word.toList ++ rest) rest :=
  ⟨_, .refl _, rfl, List.all_eq_true.mp hword, hrest⟩

/-- The text of a tree is a phrase of it, whatever follows it but a letter or a digit. -/
theorem derives_render {value : Expr} (hvalue : value.WellFormed) (rest : List Char)
    (hrest : ∀ char ∈ rest.head?, char.isAlphanum = false) :
    Derives .negation (value.render.toList ++ rest) value rest := by
  induction value generalizing rest with
  | binary left op right ihleft ihright =>
      have htext : (render (.binary left op right)).toList ++ rest =
          "(".toList ++ (left.render.toList ++ ([' '] ++ (op.symbol.toList ++
            ([' '] ++ (right.render.toList ++ (")".toList ++ rest)))))) := by
        simp [render]
      have hblank : ∀ text : List Char, Skips ([' '] ++ text) text :=
        fun text => ⟨[' '], by simp [isBlank], rfl⟩
      rw [htext]
      exact .ofOperand (.parens (.refl _) (derives_binary (ihleft hvalue.1 _ (by simp)) (hblank _)
        ((ihright hvalue.2 _ (by simp)).of_skips (hblank _))) (.refl _))
  | not operand ih =>
      have htext : (render (.not operand)).toList ++ rest =
          "!".toList ++ (operand.render.toList ++ rest) := by
        simp [render]
      rw [htext]
      exact .not (.refl _) (ih hvalue rest hrest)
  | ident name => exact .ofOperand (.ident ⟨hvalue, loneWord_append hvalue.isAlphanum hrest⟩)
  | int value => exact .ofOperand (.int (integer_render hvalue hrest))
  | bool value =>
      exact .ofOperand (.bool (loneWord_append (by cases value <;> decide) hrest))
  | str text =>
      have htext : (render (.str text)).toList ++ rest = '"' :: text.toList ++ '"' :: rest := by
        simp [render]
      rw [htext]
      exact .ofOperand (.str ⟨hvalue, .refl _⟩)

theorem parse_render {value : Expr} (hvalue : value.WellFormed) :
    Expr.parse value.render = .ok value := by
  have hderives := derives_render hvalue [] (by simp)
  rw [List.append_nil] at hderives
  exact parse_eq_ok_iff.mpr
    ⟨[], .ofSum (.ofProduct (.ofNegation hderives)), .refl _⟩

theorem wellFormed_of_parse {source : String} {value : Expr}
    (hparse : Expr.parse source = .ok value) : value.WellFormed := by
  obtain ⟨rest, hderives, -⟩ := parse_eq_ok_iff.mp hparse
  exact hderives.wellFormed

/-- A tree is read back from its text exactly if it can be written down, parsing gives no other
trees, and a tree that was parsed is parsed again from its text. -/
theorem parse_render_eq_ok_iff :
    (∀ value : Expr, Expr.parse value.render = .ok value ↔ value.WellFormed) ∧
      (∀ source value, Expr.parse source = .ok value → value.WellFormed) ∧
      ∀ source value, Expr.parse source = .ok value → Expr.parse value.render = .ok value :=
  ⟨fun _ => ⟨wellFormed_of_parse, parse_render⟩, fun _ _ => wellFormed_of_parse,
    fun _ _ hparse => parse_render (wellFormed_of_parse hparse)⟩

end PlZero.Expr
