import PlZero.Proofs.Exec.Evaluation
import PlZero.Proofs.Exec.Frame
import PlZero.Proofs.Interpreter
import PlZero.Proofs.Parse
import PlZero.Proofs.Stmt.Contents

/-! # Sessions

A session feeds a state with source texts, one after another. Nothing in it is made up: whatever
is read, whatever fails and wherever the output goes, a variable is the target of an assignment in
one of the texts, and a text that is bound or returned is a literal of one of them.
-/

namespace PlZero

/-- A source text that is to be run or to be evaluated. -/
inductive Call where
  | program (source : String)
  | expr (source : String)

/-- What comes back from a call. -/
inductive Answer where
  | ran (result : Except Error Unit)
  | value (result : Except Error Value)

namespace Call

/-- The text of a call. -/
def source : Call → String
  | .program source => source
  | .expr source => source

/-- The text of a call is one of those that it is read as. -/
def Parses : Call → Prop
  | .program source => ∃ program, Program.parse source = .ok program
  | .expr source => ∃ value, Expr.parse source = .ok value

/-- The text of a call is read, and holds an assignment to a variable. -/
def Assigns (name : String) : Call → Prop
  | .program source => ∃ program, Program.parse source = .ok program ∧ program.Assigns name
  | .expr _ => False

/-- The text of a call is read, and holds a text as a literal. -/
def Quotes (text : String) (call : Call) : Prop :=
  call.Parses ∧ text.toList ∈ Text.literals call.source.toList

variable {Out : Type} [Output Out]

/-- How a call ends. -/
inductive Ends : Call → State Out → Answer → State Out → Prop where
  | program {source state budget result final} :
      state.interpret budget source = some (result, final) →
      Ends (.program source) state (.ran result) final
  | expr {source state} : Ends (.expr source) state (.value (state.interpretExpr source)) state

end Call

/-- Calls, one after another, with what came back. -/
inductive Session {Out : Type} [Output Out] :
    State Out → List (Call × Answer) → State Out → Prop where
  | nil {state} : Session state [] state
  | cons {start call answer middle calls final} : Call.Ends call start answer middle →
      Session middle calls final → Session start ((call, answer) :: calls) final

/-- A value that calls can bring forth: an integer in the range of a word, or a text without
quotes that is a literal of a call. -/
def Value.ComesFrom (calls : List Call) : Value → Prop
  | .integer value => -9223372036854775808 ≤ value.toInt ∧ value.toInt ≤ 9223372036854775807
  | .boolean _ => True
  | .text value => '"' ∉ value.toList ∧ ∃ call ∈ calls, call.Quotes value

/-- Variables that calls can bring forth. -/
def Environment.ComesFrom (calls : List Call) (env : Environment) : Prop :=
  ∀ name value, env.get? name = some value →
    IsName name ∧ (∃ call ∈ calls, call.Assigns name) ∧ value.ComesFrom calls

variable {calls : List Call}

theorem Environment.comesFrom_empty : Environment.empty.ComesFrom calls := by
  intro name value hvalue
  rw [get?_empty] at hvalue
  cases hvalue

theorem Value.comesFrom_integer (value : Int64) : (Value.integer value).ComesFrom calls := by
  have hfits := fitsWord_toInt value
  rw [FitsWord, Int64.toInt_minValue, Int64.toInt_maxValue] at hfits
  exact hfits

/-- The strings of an expression and the texts that are bound are all that it can evaluate to. -/
theorem Expr.comesFrom_of_eval {env : Environment} {value : Expr} {result : Value}
    (henv : env.ComesFrom calls)
    (hstr : ∀ text, .str text ∈ value.parts → (Value.text text).ComesFrom calls)
    (heval : value.eval env = .ok result) : result.ComesFrom calls := by
  cases value with
  | binary left op right =>
      obtain ⟨one, other, -, -, happly⟩ := eval_binary_eq_ok_iff.mp heval
      cases result with
      | integer value => exact Value.comesFrom_integer value
      | boolean value => trivial
      | text value => exact absurd happly (op.apply_ne_text one other value)
  | not operand =>
      obtain ⟨truth, -, rfl⟩ := eval_not_eq_ok_iff.mp heval
      trivial
  | ident name => exact (henv name result (Environment.lookup_eq_ok_iff.mp heval)).2.2
  | int value =>
      cases heval
      exact Value.comesFrom_integer value
  | bool value =>
      cases heval
      trivial
  | str text =>
      cases heval
      exact hstr text List.mem_cons_self

/-- The strings of what a call is read as are literals of its text. -/
theorem Call.comesFrom_of_strings {call : Call} {exprs : List Expr} {text : String}
    (hcall : call ∈ calls) (hparses : call.Parses)
    (hliterals : Text.literals call.source.toList = stringsOf exprs)
    (htext : .str text ∈ exprs) : (Value.text text).ComesFrom calls := by
  have hmem : text.toList ∈ Text.literals call.source.toList := by
    rw [hliterals]
    exact mem_stringsOf htext
  obtain ⟨before, after, -, -, hquote⟩ := Text.exists_of_mem_literals hmem
  exact ⟨hquote, call, hcall, hparses, hmem⟩

/-- An assignment of a program that is run keeps where variables come from. -/
theorem Environment.ComesFrom.assign {env : Environment} (henv : env.ComesFrom calls)
    {source name : String} {program : Program} {value : Expr} {result : Value}
    (hcall : .program source ∈ calls) (hparse : Program.parse source = .ok program)
    (hpart : .assign name value ∈ Block.parts program) (heval : value.eval env = .ok result) :
    (env.assign name result).ComesFrom calls := by
  obtain ⟨rest, hderives, -⟩ := Program.parse_eq_ok_iff.mp hparse
  have hresult : result.ComesFrom calls :=
    Expr.comesFrom_of_eval henv
      (fun text htext => Call.comesFrom_of_strings hcall ⟨program, hparse⟩
        (DerivesAll.literals_eq (Program.parse_eq_ok_iff.mp hparse) Block.Derives.literals_eq)
        (Block.mem_exprs hpart htext))
      heval
  intro other bound hbound
  rw [get?_assign] at hbound
  split at hbound
  next heq =>
    cases hbound
    subst heq
    exact ⟨hderives.isName ⟨value, hpart⟩, ⟨_, hcall, program, hparse, value, hpart⟩, hresult⟩
  next => exact henv other bound hbound

/-- A call keeps where variables come from, and a value that it returns comes from there too. -/
theorem Call.Ends.keeps {Out : Type} [Output Out] {call : Call} {state final : State Out}
    {answer : Answer} (hends : call.Ends state answer final) (hcall : call ∈ calls)
    (henv : state.env.ComesFrom calls) :
    final.env.ComesFrom calls ∧ ∀ value, answer = .value (.ok value) → value.ComesFrom calls := by
  cases hends with
  | @program source _ budget result _ hinterpret =>
      refine ⟨?_, nofun⟩
      rcases State.interpret_eq_some_iff.mp hinterpret with
        ⟨error, -, -, rfl⟩ | ⟨program, outcome, hparse, hexec, -⟩
      · exact henv
      · exact Block.Ends.holds (fun hpart henv heval => henv.assign hcall hparse hpart heval)
          ⟨budget, hexec⟩ henv
  | @expr source _ =>
      refine ⟨henv, fun result hresult => ?_⟩
      obtain ⟨value, hparse, heval⟩ := State.interpretExpr_eq_ok_iff.mp (Answer.value.inj hresult)
      exact Expr.comesFrom_of_eval henv
        (fun text => Call.comesFrom_of_strings hcall ⟨value, hparse⟩
          (DerivesAll.literals_eq (Expr.parse_eq_ok_iff.mp hparse) Expr.Derives.literals_eq))
        heval

/-- What every call of a session keeps, the session keeps. -/
theorem Session.keeps {Out : Type} [Output Out] {start final : State Out}
    {answered : List (Call × Answer)} (hsession : Session start answered final)
    (hsubset : answered.map Prod.fst ⊆ calls) (henv : start.env.ComesFrom calls) :
    final.env.ComesFrom calls ∧
      ∀ call value, (call, .value (.ok value)) ∈ answered → value.ComesFrom calls := by
  induction hsession with
  | nil => exact ⟨henv, by simp⟩
  | @cons start call answer middle answered final hends _ ih =>
      obtain ⟨hcall, hothers⟩ := List.cons_subset.mp hsubset
      obtain ⟨hmiddle, hanswer⟩ := hends.keeps hcall henv
      obtain ⟨hfinal, hvalues⟩ := ih hothers hmiddle
      refine ⟨hfinal, fun other value hmem => ?_⟩
      rcases List.mem_cons.mp hmem with hfirst | hlater
      · obtain ⟨rfl, rfl⟩ := Prod.mk.inj hfirst
        exact hanswer value rfl
      · exact hvalues other value hlater

/-- In a session that starts without variables, every variable that is bound is a name and the
target of an assignment in one of the texts that were read; every value that is bound or returned
is an integer in range, a truth value, or a text that is a literal of one of those texts. -/
theorem Session.comesFrom {Out : Type} [Output Out] {out : Out} {calls : List (Call × Answer)}
    {final : State Out} (hsession : Session (.withOutput out) calls final) :
    (∀ name value, final.env.get? name = some value →
      IsName name ∧ (∃ call ∈ calls.map Prod.fst, call.Assigns name) ∧
        value.ComesFrom (calls.map Prod.fst)) ∧
      ∀ call value, (call, .value (.ok value)) ∈ calls →
        value.ComesFrom (calls.map Prod.fst) :=
  hsession.keeps (List.Subset.refl _) Environment.comesFrom_empty

/-- A program that faults keeps what it has copied, and a text that is not read adds nothing. -/
theorem Session.comesFrom_copied :
    ∃ (calls : List (Call × Answer)) (final : State),
      calls.map Prod.fst =
        [.program "x = \"a\" y = x z = x / 0", .program "y = \"b", .expr "y"] ∧
      Session (.withOutput .unlimited) calls final ∧
      (∀ name value, final.env.get? name = some value →
        IsName name ∧ (∃ call ∈ calls.map Prod.fst, call.Assigns name) ∧
          value.ComesFrom (calls.map Prod.fst)) ∧
      (.expr "y", .value (.ok (.text "a"))) ∈ calls ∧
      (Value.text "a").ComesFrom (calls.map Prod.fst) := by
  have hsome : (State.interpret 0 "x = \"a\" y = x z = x / 0" (.withOutput Sink.unlimited)).map
      (fun ending => (ending.2.interpretExpr "y").toOption) = some (some (.text "a")) := by
    decide +kernel
  obtain ⟨⟨result, final⟩, hfaults, hvalue⟩ := Option.map_eq_some_iff.mp hsome
  have hanswer : final.interpretExpr "y" = .ok (.text "a") := by
    cases heval : final.interpretExpr "y" with
    | error error => simp [heval, Except.toOption] at hvalue
    | ok value => simpa [heval, Except.toOption] using hvalue
  obtain ⟨error, hparse⟩ := exists_eq_error_of_isNone
    (by decide +kernel : (Program.parse "y = \"b").toOption.isNone)
  have hrejected : final.interpret 0 "y = \"b" = some (.error (.inSource error), final) :=
    State.interpret_eq_some_iff.mpr (.inl ⟨error, hparse, rfl, rfl⟩)
  have hlast : Call.Ends (.expr "y") final (.value (.ok (.text "a"))) final := hanswer ▸ .expr
  have hsession : Session (.withOutput Sink.unlimited)
      [(.program "x = \"a\" y = x z = x / 0", .ran result),
        (.program "y = \"b", .ran (.error (.inSource error))),
        (.expr "y", .value (.ok (.text "a")))] final :=
    .cons (.program hfaults) (.cons (.program hrejected) (.cons hlast .nil))
  have hmem : (Call.expr "y", Answer.value (.ok (.text "a"))) ∈
      [(.program "x = \"a\" y = x z = x / 0", .ran result),
        (.program "y = \"b", .ran (.error (.inSource error))),
        (.expr "y", .value (.ok (.text "a")))] := by simp
  obtain ⟨hbound, hreturned⟩ := Session.comesFrom hsession
  exact ⟨_, final, rfl, hsession, hbound, hmem, hreturned _ _ hmem⟩

end PlZero
