import PlZero.Interpreter
import PlZero.Proofs.Exec.Ends

/-! # Texts that are interpreted

A text is parsed, and then it is run or evaluated. A text that is not read leaves the state as it
is.
-/

namespace PlZero

theorem mapError_eq_ok_iff {Error Other Result : Type} {outcome : Except Error Result}
    {tell : Error → Other} {result : Result} :
    outcome.mapError tell = .ok result ↔ outcome = .ok result := by
  cases outcome with
  | error error => exact ⟨nofun, nofun⟩
  | ok value =>
      exact ⟨fun hresult => congrArg _ (Except.ok.inj hresult),
        fun hvalue => congrArg _ (Except.ok.inj hvalue)⟩

namespace State

variable {Out : Type} {budget more : Nat} {source : String} {state final : State Out}

theorem interpret_eq_some_iff [Output Out] {result : Except Error Unit} :
    state.interpret budget source = some (result, final) ↔
      (∃ error, Program.parse source = .error error ∧ result = .error (.inSource error) ∧
        final = state) ∨
      ∃ program outcome, Program.parse source = .ok program ∧
        Block.exec budget program state = some (outcome, final) ∧
        result = outcome.mapError .inRun := by
  rw [interpret]
  cases hparse : Program.parse source with
  | error error => simp [eq_comm]
  | ok program =>
      rw [Option.map_eq_some_iff]
      constructor
      · rintro ⟨⟨outcome, stop⟩, hexec, heq⟩
        obtain ⟨rfl, rfl⟩ := Prod.mk.inj heq
        exact .inr ⟨program, outcome, rfl, hexec, rfl⟩
      · rintro (⟨error, herror, -⟩ | ⟨_, outcome, hok, hexec, rfl⟩)
        · cases herror
        · cases hok
          exact ⟨_, hexec, rfl⟩

/-- What is interpreted to its end ends in the same way under every greater budget. -/
theorem interpret_mono [Output Out] {result : Except Error Unit} (hle : budget ≤ more)
    (hinterpret : state.interpret budget source = some (result, final)) :
    state.interpret more source = some (result, final) := by
  rw [interpret_eq_some_iff] at hinterpret ⊢
  refine hinterpret.imp_right ?_
  rintro ⟨program, outcome, hparse, hexec, hresult⟩
  exact ⟨program, outcome, hparse, Block.exec_mono hle program hexec, hresult⟩

theorem interpretExpr_eq_ok_iff {result : Value} :
    state.interpretExpr source = .ok result ↔
      ∃ value, Expr.parse source = .ok value ∧ value.eval state.env = .ok result := by
  rw [interpretExpr]
  cases Expr.parse source with
  | error error => simp
  | ok value => simp [mapError_eq_ok_iff]

end State

end PlZero
