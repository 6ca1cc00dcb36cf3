import PlZero.Interpreter
import PlZero.Proofs.Exec.Ends
import PlZero.Proofs.Parse
import PlZero.Proofs.Stmt.Portable

/-! # Programs in pieces

A program never goes on over the blanks behind it: what its last statement could still take is
settled by the first word of what follows, and no statement starts with a word that could be
taken. So two programs with blanks between them are one program, and it runs as both of them do,
one after the other.
-/

namespace PlZero

theorem Block.Derives.append {input middle rest : List Char} {first next : Block}
    (hfirst : Block.Derives input first middle) (hnext : Block.Derives middle next rest) :
    Block.Derives input (first ++ next) rest := by
  induction first generalizing input with
  | nil =>
      cases hfirst with
      | nil => exact hnext
  | cons stmt others ih =>
      cases hfirst with
      | cons hstmt hothers => exact .cons hstmt (ih hothers)

/-- Two programs with blanks between them are one program. -/
theorem Program.parse_append {first next blanks : String} {program others : Program}
    (hnil : blanks ≠ "") (hblanks : ∀ char ∈ blanks.toList, isBlank char)
    (hfirst : Program.parse first = .ok program) (hnext : Program.parse next = .ok others) :
    Program.parse (first ++ blanks ++ next) = .ok (program ++ others) := by
  obtain ⟨rest, hprogram, hrest⟩ := parse_eq_ok_iff.mp hfirst
  obtain ⟨stop, hothers, hstop⟩ := parse_eq_ok_iff.mp hnext
  obtain ⟨used, hinput, hused⟩ := hprogram.portable
  -- Behind the first program stand its own blanks, then those between the two, then the second.
  have hlike : StartsLike rest (rest ++ (blanks.toList ++ next.toList)) := by
    obtain ⟨blank, more, hcons⟩ :=
      List.exists_cons_of_ne_nil fun heq => hnil (String.toList_eq_nil_iff.mp heq)
    have hblank : isBlank blank := hblanks blank (by simp [hcons])
    have happend := (StartsLike.blank [] hblank (more ++ next.toList)).append rest
    rwa [List.append_nil, ← List.cons_append, ← hcons] at happend
  have hskips : Skips (rest ++ (blanks.toList ++ next.toList)) next.toList := by
    obtain ⟨own, hown, rfl⟩ := hrest
    refine ⟨own ++ blanks.toList, ?_, by simp⟩
    simpa [or_imp, forall_and] using ⟨hown, hblanks⟩
  obtain ⟨last, hothers, hlast⟩ := hothers.exists_of_skips hskips
  refine parse_eq_ok_iff.mpr ⟨last, ?_, hlast.trans hstop⟩
  have htext : (first ++ blanks ++ next).toList =
      used ++ (rest ++ (blanks.toList ++ next.toList)) := by
    simp [hinput]
  rw [htext]
  exact (hused _ hlike).append hothers

/-- Feeding two programs with blanks between them is feeding the first one and then, if it ran to
its end, the second one. -/
theorem interpret_append {first next blanks : String} {program others : Program}
    (hnil : blanks ≠ "") (hblanks : ∀ char ∈ blanks.toList, isBlank char)
    (hfirst : Program.parse first = .ok program) (hnext : Program.parse next = .ok others) :
    Program.parse (first ++ blanks ++ next) = .ok (program ++ others) ∧
      ∀ {Out : Type} [Output Out] (budget : Nat) (state : State Out),
        state.interpret budget (first ++ blanks ++ next) =
          match state.interpret budget first with
          | some (.ok (), middle) => middle.interpret budget next
          | stopped => stopped := by
  have hparse := Program.parse_append hnil hblanks hfirst hnext
  refine ⟨hparse, fun budget state => ?_⟩
  simp only [State.interpret, hparse, hfirst, hnext, Block.exec_append]
  rcases Block.exec budget program state with _ | ⟨fault | ⟨⟩, middle⟩ <;> rfl

/-- A branch is not continued by a name that starts with `else`. -/
theorem interpret_append_elsewhere :
    ∃ program others, Program.parse "if (0 < 1) \x7bx = 1\x7d" = .ok program ∧
      Program.parse "elsewhere = x p elsewhere" = .ok others ∧
      "\n" ≠ "" ∧ (∀ char ∈ "\n".toList, isBlank char) ∧
      Program.parse ("if (0 < 1) \x7bx = 1\x7d" ++ "\n" ++ "elsewhere = x p elsewhere") =
        .ok (program ++ others) ∧
      ∀ {Out : Type} [Output Out] (budget : Nat) (state : State Out),
        state.interpret budget
            ("if (0 < 1) \x7bx = 1\x7d" ++ "\n" ++ "elsewhere = x p elsewhere") =
          match state.interpret budget "if (0 < 1) \x7bx = 1\x7d" with
          | some (.ok (), middle) => middle.interpret budget "elsewhere = x p elsewhere"
          | stopped => stopped := by
  obtain ⟨program, hfirst⟩ :=
    exists_eq_ok_of_isSome (by decide +kernel :
      (Program.parse "if (0 < 1) \x7bx = 1\x7d").toOption.isSome)
  obtain ⟨others, hnext⟩ :=
    exists_eq_ok_of_isSome (by decide +kernel :
      (Program.parse "elsewhere = x p elsewhere").toOption.isSome)
  have hnil : "\n" ≠ "" := by decide
  have hblanks : ∀ char ∈ "\n".toList, isBlank char := List.forall_mem_singleton.mpr rfl
  exact ⟨program, others, hfirst, hnext, hnil, hblanks,
    interpret_append hnil hblanks hfirst hnext⟩

end PlZero
