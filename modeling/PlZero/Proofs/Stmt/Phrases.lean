import PlZero.Proofs.Expr.Tiers

/-! # Phrases of statements

What every statement starts with, and what may stand behind one. A statement that follows
another one starts with a letter, so it never goes on with the expression before it, and it never
starts with an `else` that a branch before it could take.
-/

namespace PlZero

/-- A word in front of a condition in parentheses. -/
def Guard (word : String) (input : List Char) (condition : Expr) (rest : List Char) : Prop :=
  ∃ afterWord start afterCondition, Symbol word input afterWord ∧ Symbol "(" afterWord start ∧
    Expr.Derives .comparison start condition afterCondition ∧ Symbol ")" afterCondition rest

theorem Block.Braced.of_skips {before input rest : List Char} {block : Block}
    (hskips : Skips before input) (hblock : Block.Braced input block rest) :
    Block.Braced before block rest := by
  cases hblock with
  | braces hopening hblock hclosing => exact .braces (hopening.of_skips hskips) hblock hclosing

theorem Stmt.Derives.of_skips {before input rest : List Char} {stmt : Stmt}
    (hskips : Skips before input) (hstmt : Stmt.Derives input stmt rest) :
    Stmt.Derives before stmt rest := by
  cases hstmt with
  | assign hname hsign hvalue => exact .assign ⟨hname.1, hname.2.of_skips hskips⟩ hsign hvalue
  | print hword hvalue => exact .print (hword.of_skips hskips) hvalue
  | branch hword hopening hcondition hclosing hyes =>
      exact .branch (hword.of_skips hskips) hopening hcondition hclosing hyes
  | branchElse hword hopening hcondition hclosing hyes helse hno =>
      exact .branchElse (hword.of_skips hskips) hopening hcondition hclosing hyes helse hno
  | loop hword hopening hcondition hclosing hbody =>
      exact .loop (hword.of_skips hskips) hopening hcondition hclosing hbody

/-- Statements behind some blanks, of which none are skipped if there are no statements. -/
theorem Block.Derives.exists_of_skips {before input rest : List Char} {block : Block}
    (hskips : Skips before input) (hblock : Block.Derives input block rest) :
    Spans Block.Derives before block rest := by
  cases hblock with
  | nil => exact ⟨before, .nil, hskips⟩
  | cons hfirst hothers => exact ⟨rest, .cons (hfirst.of_skips hskips) hothers, .refl _⟩

/-- A word in front of a sign is not followed by a letter or a digit. -/
theorem Symbol.loneWord {word sign : String} {input middle rest : List Char}
    (hword : Symbol word input middle) (hchars : word.toList.all Char.isAlphanum)
    (hsign : Symbol sign middle rest) (hhead : sign.toList.head?.any (! ·.isAlphanum)) :
    LoneWord word input middle := by
  refine ⟨word.toList ++ middle, hword, rfl, List.all_eq_true.mp hchars, fun char hchar => ?_⟩
  obtain ⟨blanks, hblanks, rfl⟩ := hsign
  obtain ⟨head, htext, halphanum⟩ := Option.any_eq_true _ _ |>.mp hhead
  obtain ⟨tail, htail⟩ := List.head?_eq_some_iff.mp htext
  cases blanks with
  | nil =>
      rw [htail] at hchar
      obtain rfl : head = char := by simpa using hchar
      simpa using halphanum
  | cons blank blanks =>
      obtain rfl : blank = char := by simpa using hchar
      have hblank := hblanks blank List.mem_cons_self
      refine Bool.eq_false_iff.mpr fun halphanum => ?_
      rw [isBlank_eq_false_of_isAlphanum halphanum] at hblank
      cases hblank

/-- Of two lone words at one place the texts are the same. -/
theorem LoneWord.unique {word other : String} {input rest stop : List Char}
    (hword : LoneWord word input rest) (hother : LoneWord other input stop)
    (hnil : word.toList ≠ []) (hnil' : other.toList ≠ []) : word = other :=
  String.toList_inj.mp <|
    (hword.wholeRun hnil).takeWhile_eq.symm.trans (hother.wholeRun hnil').takeWhile_eq

/-- What stands behind a word is settled by the word. -/
theorem LoneWord.rest_unique {word : String} {input rest stop : List Char}
    (hword : LoneWord word input rest) (hother : LoneWord word input stop)
    (hnil : word.toList ≠ []) : rest = stop :=
  (wholeRun_iff.mp (hword.wholeRun hnil)).2.symm.trans
    (wholeRun_iff.mp (hother.wholeRun hnil)).2

theorem Guard.loneWord {word : String} {input rest : List Char} {condition : Expr}
    (hguard : Guard word input condition rest) (hchars : word.toList.all Char.isAlphanum) :
    ∃ middle, LoneWord word input middle := by
  obtain ⟨middle, start, -, hword, hopening, -⟩ := hguard
  exact ⟨middle, hword.loneWord hchars hopening (by decide)⟩

/-- Every statement starts with a word other than `else`. -/
theorem Stmt.Derives.exists_loneWord {input rest : List Char} {stmt : Stmt}
    (hstmt : Stmt.Derives input stmt rest) :
    ∃ word middle, LoneWord word input middle ∧ word ≠ "else" ∧
      ∃ head tail, word.toList = head :: tail ∧ head.isAlpha := by
  cases hstmt with
  | assign hname =>
      refine ⟨_, _, hname.2, ?_, hname.1.exists_eq_cons⟩
      rintro rfl
      exact hname.1.2 (by decide)
  | print hword => exact ⟨"p", _, hword, by decide, _, _, rfl, by decide⟩
  | branch hword hopening | branchElse hword hopening =>
      exact ⟨"if", _, hword.loneWord (by decide) hopening (by decide), by decide, _, _, rfl,
        by decide⟩
  | loop hword hopening =>
      exact ⟨"while", _, hword.loneWord (by decide) hopening (by decide), by decide, _, _, rfl,
        by decide⟩

/-- A text goes on with an `else` and the start of a block. -/
def ElseBlock (input : List Char) : Prop :=
  ∃ other start, Symbol "else" input other ∧ Symbol "\x7b" other start

/-- No statement that ends in front of a text can take more of it. -/
structure EndsStmt (input : List Char) : Prop where
  avoids : Avoids Expr.operatorSigns input
  no_else : ¬ ElseBlock input

theorem EndsStmt.of_nextChar {input : List Char} (hnext : ∀ char ∈ nextChar? input, char = '\x7d') :
    EndsStmt input where
  avoids char hchar := hnext char hchar ▸ by decide
  no_else := by
    rintro ⟨other, start, helse, -⟩
    have hchar := hnext 'e' (helse.nextChar?_eq (by decide))
    revert hchar
    decide

theorem Stmt.Derives.endsStmt {input rest : List Char} {stmt : Stmt}
    (hstmt : Stmt.Derives input stmt rest) : EndsStmt input := by
  obtain ⟨word, middle, hword, hne, head, tail, hhead, halpha⟩ := hstmt.exists_loneWord
  constructor
  · intro char hchar hmem
    rw [hword.nextChar?_eq (by simp [hhead]), hhead] at hchar
    obtain rfl : head = char := by simpa using hchar
    have hsigns : Expr.operatorSigns.all (! Char.isAlpha ·) := by decide
    have hsign := List.all_eq_true.mp hsigns head hmem
    rw [halpha] at hsign
    cases hsign
  · rintro ⟨other, start, helse, hopening⟩
    have helse' := helse.loneWord (by decide) hopening (by decide)
    exact hne (hword.unique helse' (by simp [hhead]) (by decide))

/-- Behind a statement of a block comes another one or the end of the block. -/
theorem Block.Derives.endsStmt {input rest : List Char} {block : Block}
    (hblock : Block.Derives input block rest) (hnext : ∀ char ∈ nextChar? rest, char = '\x7d') :
    EndsStmt input := by
  cases hblock with
  | nil => exact .of_nextChar hnext
  | cons hfirst => exact hfirst.endsStmt

end PlZero
