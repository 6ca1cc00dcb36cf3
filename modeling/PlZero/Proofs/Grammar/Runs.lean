import PlZero.Proofs.Grammar.Derivation

/-! # Blanks and runs of characters

The longest run of a class at the start of a text is what `takeWhile` takes, and skipping all
blanks is what `dropWhile` does. Phrases leave it open how much of the blanks they skip.
-/

namespace PlZero

theorem wholeRun_iff {accepts : Char → Bool} {input run rest : List Char} :
    WholeRun accepts input run rest ↔
      input.takeWhile accepts = run ∧ input.dropWhile accepts = rest := by
  constructor
  · rintro ⟨rfl, hrun, hstops⟩
    rw [List.takeWhile_append_of_pos hrun, List.dropWhile_append_of_pos hrun]
    cases rest with
    | nil => simp
    | cons head rest => simp [hstops head (by simp)]
  · rintro ⟨rfl, rfl⟩
    refine ⟨List.takeWhile_append_dropWhile.symm, fun char hchar => ?_, fun char hchar => ?_⟩
    · exact List.all_eq_true.mp List.all_takeWhile char hchar
    · have hhead := List.head?_dropWhile_not accepts input
      rw [Option.mem_def.mp hchar] at hhead
      simpa using hhead

theorem WholeRun.takeWhile_eq {accepts : Char → Bool} {input run rest : List Char}
    (hrun : WholeRun accepts input run rest) : input.takeWhile accepts = run :=
  (wholeRun_iff.mp hrun).1

/-- A single character is a whole run in front of anything that does not go on with it. -/
theorem WholeRun.single {accepts : Char → Bool} {head : Char} {rest : List Char}
    (hhead : accepts head) (hstops : ∀ char ∈ rest.head?, accepts char = false) :
    WholeRun accepts (head :: rest) [head] rest :=
  ⟨rfl, List.forall_mem_singleton.mpr hhead, hstops⟩

theorem drop_length_takeWhile (accepts : Char → Bool) (input : List Char) :
    input.drop (input.takeWhile accepts).length = input.dropWhile accepts :=
  calc input.drop (input.takeWhile accepts).length
      = (input.takeWhile accepts ++ input.dropWhile accepts).drop
          (input.takeWhile accepts).length := by rw [List.takeWhile_append_dropWhile]
    _ = input.dropWhile accepts := List.drop_left

theorem wholeRun_takeWhile (accepts : Char → Bool) (input : List Char) :
    WholeRun accepts input (input.takeWhile accepts)
      (input.drop (input.takeWhile accepts).length) :=
  wholeRun_iff.mpr ⟨rfl, (drop_length_takeWhile accepts input).symm⟩

namespace Skips

variable {input middle rest : List Char}

@[refl]
theorem refl (input : List Char) : Skips input input := ⟨[], by simp, rfl⟩

theorem space (input : List Char) : Skips (' ' :: input) input :=
  ⟨[' '], List.forall_mem_singleton.mpr rfl, rfl⟩

theorem trans (hfirst : Skips input middle) (hnext : Skips middle rest) : Skips input rest := by
  obtain ⟨blanks, hblanks, rfl⟩ := hfirst
  obtain ⟨others, hothers, rfl⟩ := hnext
  refine ⟨blanks ++ others, ?_, (List.append_assoc _ _ _).symm⟩
  simpa [or_imp, forall_and] using ⟨hblanks, hothers⟩

theorem dropWhile (input : List Char) : Skips input (input.dropWhile isBlank) :=
  ⟨input.takeWhile isBlank, List.all_eq_true.mp List.all_takeWhile,
    List.takeWhile_append_dropWhile.symm⟩

theorem dropWhile_eq (hskips : Skips input rest) :
    input.dropWhile isBlank = rest.dropWhile isBlank := by
  obtain ⟨blanks, hblanks, rfl⟩ := hskips
  exact List.dropWhile_append_of_pos hblanks

/-- Where a character follows that is no blank, all blanks are skipped. -/
theorem dropWhile_eq_cons {head : Char} (hskips : Skips input (head :: rest))
    (hhead : isBlank head = false) : input.dropWhile isBlank = head :: rest := by
  rw [hskips.dropWhile_eq, List.dropWhile_cons_of_neg (by simp [hhead])]

theorem nil_iff : Skips input [] ↔ input.dropWhile isBlank = [] := by
  constructor
  · exact fun hskips => hskips.dropWhile_eq
  · exact fun heq => heq ▸ dropWhile input

theorem length_le (hskips : Skips input rest) : rest.length ≤ input.length := by
  obtain ⟨blanks, -, rfl⟩ := hskips
  simp

end Skips

/-! ## Tokens behind blanks -/

theorem Symbol.of_skips {text : String} {before input rest : List Char}
    (hskips : Skips before input) (hsymbol : Symbol text input rest) : Symbol text before rest :=
  hskips.trans hsymbol

theorem LoneWord.of_skips {word : String} {before input rest : List Char}
    (hskips : Skips before input) (hword : LoneWord word input rest) :
    LoneWord word before rest := by
  obtain ⟨start, hstart, hrun⟩ := hword
  exact ⟨start, hskips.trans hstart, hrun⟩

theorem Symbol.length_lt {text : String} {input rest : List Char} (hsymbol : Symbol text input rest)
    (htext : text ≠ "") : rest.length < input.length := by
  have hle := hsymbol.length_le
  have hpos : 0 < text.toList.length :=
    List.length_pos_iff.mpr fun hnil => htext (String.toList_eq_nil_iff.mp hnil)
  rw [List.length_append] at hle
  omega

theorem isBlank_eq_false_of_isAlphanum {char : Char} (halphanum : char.isAlphanum) :
    isBlank char = false := by
  refine Bool.eq_false_iff.mpr fun hblank => ?_
  simp only [isBlank, Bool.or_eq_true, decide_eq_true_eq] at hblank
  rcases hblank with ((rfl | rfl) | rfl) | rfl <;> revert halphanum <;> decide

theorem isAlphanum_eq_false_of_isBlank {char : Char} (hblank : isBlank char) :
    char.isAlphanum = false := by
  refine Bool.eq_false_iff.mpr fun halphanum => ?_
  rw [isBlank_eq_false_of_isAlphanum halphanum] at hblank
  cases hblank

theorem quote_not_mem_of_isBlank {blanks : List Char} (hblanks : ∀ char ∈ blanks, isBlank char) :
    '"' ∉ blanks := by
  intro hmem
  have hquote := hblanks '"' hmem
  revert hquote
  decide

theorem Symbol.dropWhile_eq {text : String} {input rest : List Char}
    (hsymbol : Symbol text input rest) (hhead : text.toList.head?.any (! isBlank ·)) :
    input.dropWhile isBlank = text.toList ++ rest := by
  obtain ⟨head, htext, hblank⟩ := Option.any_eq_true _ _ |>.mp hhead
  obtain ⟨tail, htail⟩ := List.head?_eq_some_iff.mp htext
  rw [Symbol, htail] at hsymbol
  rw [hsymbol.dropWhile_eq_cons (by simpa using hblank), htail]
  rfl

/-- A run of characters that are no blanks starts behind all blanks. -/
theorem Skips.dropWhile_eq_of_wholeRun {accepts : Char → Bool} {input start run rest : List Char}
    (hskips : Skips input start) (hrun : WholeRun accepts start run rest) (hnil : run ≠ [])
    (hblank : ∀ char, accepts char → isBlank char = false) : input.dropWhile isBlank = start := by
  obtain ⟨head, tail, rfl⟩ := List.exists_cons_of_ne_nil hnil
  rw [hrun.eq_append] at hskips ⊢
  exact hskips.dropWhile_eq_cons (hblank head (hrun.accepts_run head List.mem_cons_self))

theorem LoneWord.wholeRun {word : String} {input rest : List Char}
    (hword : LoneWord word input rest) (hnil : word.toList ≠ []) :
    WholeRun Char.isAlphanum (input.dropWhile isBlank) word.toList rest := by
  obtain ⟨start, hstart, hrun⟩ := hword
  rwa [hstart.dropWhile_eq_of_wholeRun hrun hnil fun _ => isBlank_eq_false_of_isAlphanum]

theorem isAlphanum_of_isAlpha {char : Char} (halpha : char.isAlpha) : char.isAlphanum := by
  simp [Char.isAlphanum, halpha]

theorem IsName.exists_eq_cons {name : String} (hname : IsName name) :
    ∃ head tail, name.toList = head :: tail ∧ head.isAlpha := by
  obtain ⟨⟨head, tail, heq, halpha, -⟩, -⟩ := hname
  exact ⟨head, tail, heq, halpha⟩

theorem IsName.isAlphanum {name : String} (hname : IsName name) :
    name.toList.all Char.isAlphanum := by
  obtain ⟨⟨head, tail, heq, halpha, htail⟩, -⟩ := hname
  rw [heq]
  refine List.all_eq_true.mpr fun char hchar => ?_
  rcases List.mem_cons.mp hchar with rfl | hchar
  · exact isAlphanum_of_isAlpha halpha
  · exact htail char hchar

theorem isAlphanum_of_isDigit {char : Char} (hdigit : char.isDigit) : char.isAlphanum := by
  simp [Char.isAlphanum, hdigit]

theorem isDigit_eq_false_of_isAlpha {char : Char} (halpha : char.isAlpha) :
    char.isDigit = false := by
  unfold Char.isAlpha Char.isUpper Char.isLower at halpha
  unfold Char.isDigit
  grind

theorem Integer.exists_wholeRun {value : Int64} {input rest : List Char}
    (hint : Integer value input rest) :
    ∃ digits, WholeRun Char.isDigit (input.dropWhile isBlank) digits rest ∧ digits ≠ [] ∧
      value.toInt = Nat.ofDigitChars 10 digits 0 := by
  obtain ⟨start, digits, hstart, hrun, hnil, hvalue⟩ := hint
  refine ⟨digits, ?_, hnil, hvalue⟩
  rwa [hstart.dropWhile_eq_of_wholeRun hrun hnil fun _ hdigit =>
    isBlank_eq_false_of_isAlphanum (isAlphanum_of_isDigit hdigit)]

/-! ## The next character -/

/-- The first character behind the blanks. -/
def nextChar? (input : List Char) : Option Char := (input.dropWhile isBlank).head?

/-- What comes next is none of some characters. -/
def Avoids (signs input : List Char) : Prop := ∀ char ∈ nextChar? input, char ∉ signs

theorem Avoids.mono {signs fewer input : List Char} (havoids : Avoids signs input)
    (hsubset : fewer ⊆ signs) : Avoids fewer input :=
  fun char hchar hmem => havoids char hchar (hsubset hmem)

theorem Avoids.of_skips {signs input rest : List Char} (havoids : Avoids signs input)
    (hskips : Skips input rest) : Avoids signs rest := by
  rwa [Avoids, nextChar?, ← hskips.dropWhile_eq]

theorem Symbol.nextChar?_eq {text : String} {input rest : List Char}
    (hsymbol : Symbol text input rest) (hhead : text.toList.head?.any (! isBlank ·)) :
    nextChar? input = text.toList.head? := by
  rw [nextChar?, hsymbol.dropWhile_eq hhead]
  obtain ⟨head, htext, -⟩ := Option.any_eq_true _ _ |>.mp hhead
  obtain ⟨tail, htail⟩ := List.head?_eq_some_iff.mp htext
  rw [htail]
  rfl

theorem Symbol.avoids {signs : List Char} {text : String} {input rest : List Char}
    (hsymbol : Symbol text input rest)
    (hhead : text.toList.head?.any fun head => ! isBlank head && ! signs.contains head) :
    Avoids signs input := by
  obtain ⟨head, htext, hfree⟩ := Option.any_eq_true _ _ |>.mp hhead
  obtain ⟨hblank, hmem⟩ := Bool.and_eq_true_iff.mp hfree
  intro char hchar
  rw [hsymbol.nextChar?_eq (Option.any_eq_true _ _ |>.mpr ⟨head, htext, hblank⟩), htext] at hchar
  obtain rfl := Option.some_inj.mp hchar
  simpa using hmem

theorem LoneWord.nextChar?_eq {word : String} {input rest : List Char}
    (hword : LoneWord word input rest) (hnil : word.toList ≠ []) :
    nextChar? input = word.toList.head? := by
  obtain ⟨head, tail, hhead⟩ := List.exists_cons_of_ne_nil hnil
  rw [nextChar?, (hword.wholeRun hnil).eq_append, hhead]
  rfl

theorem nextChar?_cons {head : Char} {tail : List Char} (hhead : isBlank head = false) :
    nextChar? (head :: tail) = some head := by
  rw [nextChar?, List.dropWhile_cons_of_neg (by simp [hhead])]
  rfl

end PlZero
