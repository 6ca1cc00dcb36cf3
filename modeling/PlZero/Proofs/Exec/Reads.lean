import PlZero.Proofs.Exec.Frame

/-! # What a run depends on

Two runs of a block whose variables agree wherever the block reads keep in step: they evaluate the
same values, take the same branches and print the same lines. Their variables may differ from the
start only where nothing is read, and they go on to differ only where nothing was assigned.
-/

namespace PlZero

/-- The value of an expression depends on the variables that occur in it. -/
theorem Expr.eval_eq_of_agree {left right : Environment} (value : Expr)
    (hagree : ∀ name, .ident name ∈ value.parts → left.get? name = right.get? name) :
    value.eval left = value.eval right := by
  induction value with
  | binary one op other ihone ihother =>
      rw [parts] at hagree
      rw [eval, eval,
        ihone fun name hname => hagree name
          (List.mem_cons_of_mem _ (List.mem_append_left _ hname)),
        ihother fun name hname => hagree name
          (List.mem_cons_of_mem _ (List.mem_append_right _ hname))]
  | not operand ih =>
      rw [parts] at hagree
      rw [eval, eval, ih fun name hname => hagree name (List.mem_cons_of_mem _ hname)]
  | ident name =>
      rw [eval, eval, Environment.lookup, Environment.lookup,
        hagree name (List.mem_singleton.mpr rfl)]
  | int value => rfl
  | bool value => rfl
  | str text => rfl

namespace Machine

variable {Out : Type} {block : Block} {left right : Environment} {one other : State Out}

/-- Two runs of a block that began with the variables `left` and `right`. -/
structure Agreement (block : Block) (left right : Environment) (one other : State Out) :
    Prop where
  /-- the same was printed -/
  sink_eq : one.sink = other.sink
  /-- what the block reads is the same -/
  reads : ∀ name, block.Reads name → one.env.get? name = other.env.get? name
  /-- what differs was there from the start -/
  elsewhere : ∀ name, one.env.get? name = other.env.get? name ∨
    one.env.get? name = left.get? name ∧ other.env.get? name = right.get? name

/-- Two machines that differ in their states only, which are related. -/
inductive Config.Alike (related : State Out → State Out → Prop) :
    Config Out → Config Out → Prop where
  | running {pending one other} : related one other →
      Alike related (.running pending one) (.running pending other)
  | stopped {fault one other} : related one other →
      Alike related (.stopped fault one) (.stopped fault other)

theorem Config.Alike.ending? {related : State Out → State Out → Prop} {before twin : Config Out}
    (halike : before.Alike related twin) {result : Except Fault Unit} {final : State Out}
    (hending : before.ending? = some (result, final)) :
    ∃ other, twin.ending? = some (result, other) ∧ related final other := by
  cases halike with
  | stopped hrelated =>
      cases hending
      exact ⟨_, rfl, hrelated⟩
  | @running pending one other hrelated =>
      cases pending with
      | nil =>
          cases hending
          exact ⟨_, rfl, hrelated⟩
      | cons work pending => cases hending

namespace Agreement

theorem symm (hagree : Agreement block left right one other) :
    Agreement block right left other one where
  sink_eq := hagree.sink_eq.symm
  reads name hname := (hagree.reads name hname).symm
  elsewhere name := (hagree.elsewhere name).imp Eq.symm And.symm

theorem eval_eq (hagree : Agreement block left right one other) {stmt : Stmt}
    (hstmt : stmt ∈ block.parts) : stmt.subject.eval one.env = stmt.subject.eval other.env :=
  Expr.eval_eq_of_agree _ fun name hname => hagree.reads name (Block.mem_exprs hstmt hname)

/-- Both runs assign the same value, and from there on agree on its variable. -/
theorem assign (hagree : Agreement block left right one other) (name : String) (value : Value) :
    Agreement block left right { one with env := one.env.assign name value }
      { other with env := other.env.assign name value } where
  sink_eq := hagree.sink_eq
  reads read hread := by
    rw [Environment.get?_assign, Environment.get?_assign, hagree.reads read hread]
  elsewhere read := by
    rw [Environment.get?_assign, Environment.get?_assign]
    by_cases hname : name = read
    · rw [if_pos hname, if_pos hname]
      exact .inl rfl
    · rw [if_neg hname, if_neg hname]
      exact hagree.elsewhere read

variable [Output Out]

theorem resume_print (hagree : Agreement block left right one other) (pending : List Work)
    (value : Value) : Config.Alike (Agreement block left right)
      (.resume pending (one.print value)) (.resume pending (other.print value)) := by
  rw [State.print, State.print, hagree.sink_eq]
  rcases Output.print other.sink value with ⟨reason | ⟨⟩, sink⟩
  · exact .stopped ⟨rfl, hagree.reads, hagree.elsewhere⟩
  · exact .running ⟨rfl, hagree.reads, hagree.elsewhere⟩

/-- A step of one run is a step of the other one. -/
theorem step (hagree : Agreement block left right one other) {work : Work}
    (hwork : work.toStmt ∈ block.parts) (pending : List Work) :
    Config.Alike (Agreement block left right) (work.step pending one)
      (work.step pending other) := by
  have hsubject := hagree.eval_eq hwork
  cases work with
  | assign name value =>
      have hvalue : value.eval one.env = value.eval other.env := hsubject
      rw [Work.step, Work.step, ← hvalue]
      split
      next value _ => exact .running (hagree.assign name value)
      next => exact .stopped hagree
  | print value =>
      have hvalue : value.eval one.env = value.eval other.env := hsubject
      rw [Work.step, Work.step, ← hvalue]
      split
      next value _ => exact hagree.resume_print pending value
      next => exact .stopped hagree
  | branch condition yes no =>
      have htest : condition.test "if" one.env = condition.test "if" other.env :=
        congrArg (· >>= Value.truth "if") hsubject
      rw [Work.step, Work.step, ← htest]
      split
      · exact .running hagree
      · exact .running hagree
      · exact .stopped hagree
  | loop phase condition body =>
      cases phase with
      | checkCondition =>
          have htest : condition.test "while" one.env = condition.test "while" other.env :=
            congrArg (· >>= Value.truth "while") hsubject
          rw [Work.step, Work.step, ← htest]
          split
          · exact .running hagree
          · exact .running hagree
          · exact .stopped hagree
      | runBody => exact .running hagree

end Agreement

namespace Config

variable [Output Out] {before after twin reached : Config Out}

theorem Alike.step (halike : before.Alike (Agreement block left right) twin)
    (hwithin : before.Within block) (hstep : before.step? = some after) :
    ∃ next, twin.step? = some next ∧ after.Alike (Agreement block left right) next := by
  obtain ⟨work, pending, state, rfl, rfl⟩ := exists_work_of_step? hstep
  cases halike with
  | running hagree => exact ⟨_, rfl, hagree.step (hwithin work List.mem_cons_self) pending⟩

theorem Alike.steps (halike : before.Alike (Agreement block left right) twin)
    (hwithin : before.Within block) (hsteps : Steps before reached) :
    ∃ other, Steps twin other ∧ reached.Alike (Agreement block left right) other := by
  have hreached : reached.Within block ∧
      ∃ other, Steps twin other ∧ reached.Alike (Agreement block left right) other := by
    induction hsteps with
    | refl => exact ⟨hwithin, twin, .refl, halike⟩
    | tail _ hstep ih =>
        obtain ⟨hmiddle, other, hother, halike⟩ := ih
        obtain ⟨next, hnext, halike⟩ := halike.step hmiddle hstep
        exact ⟨hmiddle.step hstep, next, hother.tail hnext, halike⟩
  exact hreached.2

end Config

variable [Output Out]

/-- If one of two runs that agree ends, then the other one ends with the same result. -/
theorem Agreement.ends (hagree : Agreement block left right one other)
    {result : Except Fault Unit} {final : State Out} (hending : block.Ends one (result, final)) :
    ∃ twin, block.Ends other (result, twin) ∧ Agreement block left right final twin := by
  obtain ⟨reached, hsteps, hreached⟩ := (Config.ends_iff_exists_steps _ _ _).mp hending
  obtain ⟨config, hconfig, halike⟩ :=
    Config.Alike.steps (.running hagree) (Config.within_start block one) hsteps
  obtain ⟨twin, htwin, hfinal⟩ := halike.ending? hreached
  exact ⟨twin, (Config.ends_iff_exists_steps _ _ _).mpr ⟨config, hconfig, htwin⟩, hfinal⟩

/-- A run depends only on the variables that the block reads. From two environments that agree on
these, with the same sink, either neither run ends, or both end with the same result and the same
output; and of each variable they leave the same, or both left it as it was. -/
theorem ends_of_agree {block : Block} {left right : Environment} (sink : Out)
    (hagree : ∀ name, block.Reads name → left.get? name = right.get? name) :
    ((∀ ending, ¬ block.Ends (State.mk left sink) ending) ∧
        ∀ ending, ¬ block.Ends (State.mk right sink) ending) ∨
      ∃ result one other, block.Ends (State.mk left sink) (result, one) ∧
        block.Ends (State.mk right sink) (result, other) ∧ one.sink = other.sink ∧
        ∀ name, one.env.get? name = other.env.get? name ∨
          one.env.get? name = left.get? name ∧ other.env.get? name = right.get? name := by
  have hstart : Agreement block left right (State.mk left sink) (State.mk right sink) :=
    ⟨rfl, hagree, fun _ => .inr ⟨rfl, rfl⟩⟩
  by_cases hends : ∃ ending, block.Ends (State.mk left sink) ending
  · obtain ⟨⟨result, one⟩, hone⟩ := hends
    obtain ⟨other, hother, hfinal⟩ := hstart.ends hone
    exact .inr ⟨result, one, other, hone, hother, hfinal.sink_eq, hfinal.elsewhere⟩
  · refine .inl ⟨not_exists.mp hends, fun ⟨result, other⟩ hother => hends ?_⟩
    obtain ⟨one, hone, -⟩ := hstart.symm.ends hother
    exact ⟨_, hone⟩

/-- What a variable holds before a loop that only assigns it makes no difference to the loop. -/
theorem ends_of_agree_last :
    let block : Block :=
      [.loop (.binary (.ident "n") (.compare .lt) (.int 2))
        [.assign "last" (.ident "n"), .assign "n" (.binary (.ident "n") (.arith .add) (.int 1))]]
    let left := Environment.empty.assign "n" (.integer 0)
    let right := left.assign "last" (.text "none")
    (∀ name, block.Reads name → left.get? name = right.get? name) ∧
      (((∀ ending, ¬ block.Ends (State.mk left Sink.unlimited) ending) ∧
          ∀ ending, ¬ block.Ends (State.mk right Sink.unlimited) ending) ∨
        ∃ result one other, block.Ends (State.mk left Sink.unlimited) (result, one) ∧
          block.Ends (State.mk right Sink.unlimited) (result, other) ∧ one.sink = other.sink ∧
          ∀ name, one.env.get? name = other.env.get? name ∨
            one.env.get? name = left.get? name ∧ other.env.get? name = right.get? name) := by
  intro block left right
  have hagree : ∀ name, block.Reads name → left.get? name = right.get? name := by
    intro name hname
    have hread : name = "n" := by
      simpa [block, Block.Reads, Block.exprs, Block.parts, Stmt.parts, Stmt.subject, Expr.parts]
        using hname
    simp [hread, right, Environment.get?_assign]
  exact ⟨hagree, ends_of_agree Sink.unlimited hagree⟩

end Machine

end PlZero
