import Mathlib.Logic.Relation
import PlZero.Proofs.Exec.Frame

/-! # What a run leaves behind

However a run ends, it has bound the targets of assignments and nothing else, it has unbound
nothing, and it has only added to what the sink had accepted. An assignment that fails is no
assignment: the machine stops in front of it.
-/

namespace PlZero

/-- What has been accepted of all that was printed is never taken back. -/
def Output.Appends {Out : Type} [Output Out] (accepted : Out → ByteArray) : Prop :=
  ∀ out value, ∃ bytes, accepted (Output.print out value).2 = accepted out ++ bytes

theorem Sink.appends_written : Output.Appends Sink.written := by
  intro sink value
  obtain ⟨bytes, hbytes⟩ := sink.exists_accept_writeLine value.render
  exact ⟨bytes, congrArg written hbytes⟩

namespace Machine

variable {Out : Type} {block : Block}

/-- What a run of a block may do to the variables. -/
structure Frame (block : Block) (before after : Environment) : Prop where
  /-- what was bound is bound -/
  bound : ∀ name, before.get? name ≠ none → after.get? name ≠ none
  /-- what is no target is bound as before, or as before not at all -/
  same : ∀ name, ¬ block.Assigns name → after.get? name = before.get? name
  /-- what is new is a target -/
  target : ∀ name, before.get? name = none → after.get? name ≠ none → block.Assigns name

namespace Frame

theorem refl (block : Block) (env : Environment) : Frame block env env where
  bound _ := id
  same _ _ := rfl
  target _ hnone hsome := absurd hnone hsome

/-- An assignment of the block may be added to a run. -/
theorem assign {before after : Environment} (hframe : Frame block before after) {name : String}
    (hname : block.Assigns name) (value : Value) :
    Frame block before (after.assign name value) where
  bound other hbound := by
    rw [Environment.get?_assign]
    split
    next => exact Option.some_ne_none _
    next => exact hframe.bound other hbound
  same other hother := by
    rw [Environment.get?_assign, if_neg, hframe.same other hother]
    exact fun heq => hother (heq ▸ hname)
  target other hnone hsome := by
    rw [Environment.get?_assign] at hsome
    split at hsome
    next heq => exact heq ▸ hname
    next => exact hframe.target other hnone hsome

end Frame

variable [Output Out] {state final : State Out} {result : Except Fault Unit}

theorem frame_of_ends {ending : Ending Out} (hending : block.Ends state ending) :
    Frame block state.env ending.2.env :=
  hending.holds (fun hpart hframe _ => hframe.assign ⟨_, hpart⟩ _) (.refl block state.env)

theorem Config.sink_resume_print (pending : List Work) (state : State Out) (value : Value) :
    (resume pending (state.print value)).state.sink = (Output.print state.sink value).2 := by
  unfold State.print
  rcases Output.print state.sink value with ⟨reason | ⟨⟩, sink⟩ <;> rfl

/-- A step that is no print leaves the sink as it is. -/
theorem Work.sink_step (work : Work) (pending : List Work) (state : State Out) :
    (work.step pending state).state.sink = state.sink ∨
      ∃ value, (work.step pending state).state.sink = (Output.print state.sink value).2 := by
  obtain ⟨value, shown, rfl, hvalue⟩ | hsilent := work.prints_or_step_withSink pending state
  · refine .inr ⟨shown, ?_⟩
    rw [Work.step, hvalue]
    exact Config.sink_resume_print pending state shown
  · refine .inl ?_
    -- With the sink it has, the step is one that puts this sink back in place.
    have hsame : work.step pending state = _ := hsilent state.sink
    rw [hsame, Config.state_withSink]

/-- What prints keep of a sink is kept by every run. -/
theorem sink_of_ends (Holds : Out → Prop)
    (hprint : ∀ sink value, Holds sink → Holds (Output.print sink value).2)
    {ending : Ending Out} (hending : block.Ends state ending) (hholds : Holds state.sink) :
    Holds ending.2.sink := by
  obtain ⟨reached, hsteps, hreached⟩ := (Config.ends_iff_exists_steps _ _ _).mp hending
  rw [← Config.state_of_ending? hreached]
  clear hreached
  induction hsteps with
  | refl => exact hholds
  | tail _ hstep ih =>
      obtain ⟨work, pending, middle, rfl, rfl⟩ := Config.exists_work_of_step? hstep
      obtain hsame | ⟨value, hprinted⟩ := work.sink_step pending middle
      · rw [hsame]
        exact ih
      · rw [hprinted]
        exact hprint _ value ih

theorem appends_of_ends {accepted : Out → ByteArray} (happends : Output.Appends accepted)
    {ending : Ending Out} (hending : block.Ends state ending) :
    ∃ bytes, accepted ending.2.sink = accepted state.sink ++ bytes := by
  refine sink_of_ends (fun sink => ∃ bytes, accepted sink = accepted state.sink ++ bytes) ?_ hending
    ⟨.empty, ByteArray.append_empty.symm⟩
  rintro sink value ⟨bytes, hbytes⟩
  obtain ⟨more, hmore⟩ := happends sink value
  exact ⟨bytes ++ more, by rw [hmore, hbytes, ByteArray.append_assoc]⟩

/-- A run that comes to an assignment whose value has a fault ends there, with the state as it
was. -/
theorem ending_of_assign_error {ending : Ending Out} {name : String} {value : Expr}
    {pending : List Work} {before : State Out} {fault : Fault}
    (hending : block.Ends state ending)
    (hsteps : Config.Steps (.start block state) (.running (.assign name value :: pending) before))
    (hvalue : value.eval before.env = .error fault) : ending = (.error fault, before) := by
  have hstep : (Config.running (.assign name value :: pending) before).step? =
      some (.stopped fault before) := by
    rw [Config.step?, Work.step, hvalue]
  exact hending.unique
    ((Config.ends_iff_exists_steps _ _ _).mpr ⟨_, hsteps.tail hstep, rfl⟩)

/-- However a run of a block ends: what was bound is still bound, what is no target of an
assignment is as it was, and what is newly bound is a target; the bytes that had been accepted are
the first of those that are accepted then, whatever accepts them and takes none back, as a sink
does; and a run that comes to an assignment that fails leaves the state before it. -/
theorem ends_frame (block : Block) :
    (∀ {Out : Type} [Output Out] (state final : State Out) (result : Except Fault Unit),
      block.Ends state (result, final) →
        Frame block state.env final.env ∧
        (∀ accepted : Out → ByteArray, Output.Appends accepted →
          ∃ bytes, accepted final.sink = accepted state.sink ++ bytes) ∧
        ∀ name value pending before fault,
          Config.Steps (.start block state) (.running (.assign name value :: pending) before) →
          value.eval before.env = .error fault → result = .error fault ∧ final = before) ∧
      Output.Appends Sink.written := by
  refine ⟨fun state final result hending => ⟨frame_of_ends hending, ?_, ?_⟩,
    Sink.appends_written⟩
  · exact fun accepted happends => appends_of_ends happends hending
  · intro name value pending before fault hsteps hvalue
    exact Prod.mk.inj (ending_of_assign_error hending hsteps hvalue)

/-- The second round of a loop fails where it would bind `q` again, behind what it has printed. -/
theorem ends_frame_second_round :
    let body : Block :=
      [.assign "n" (.binary (.ident "n") (.arith .sub) (.int 1)), .print (.ident "n"),
        .assign "q" (.binary (.int 1) (.arith .div) (.ident "n"))]
    let block : Block := [.loop (.ident "go") body]
    let state : State :=
      ⟨(Environment.empty.assign "n" (.integer 2)).assign "go" (.boolean true), Sink.unlimited⟩
    let final : State :=
      ⟨((state.env.assign "n" (.integer 1)).assign "q" (.integer 1)).assign "n" (.integer 0),
        Sink.unlimited.accept "1\n0\n".toUTF8⟩
    let quotient : Expr := .binary (.int 1) (.arith .div) (.ident "n")
    block.Ends state (.error (.divisionByZero "/"), final) ∧ Output.Appends Sink.written ∧
      Config.Steps (.start block state)
        (.running [.assign "q" quotient, .loop .runBody (.ident "go") body] final) ∧
      quotient.eval final.env = .error (.divisionByZero "/") ∧
      Frame block state.env final.env ∧
      (∃ bytes, final.sink.written = state.sink.written ++ bytes) ∧
      ∀ result after, block.Ends state (result, after) →
        result = .error (.divisionByZero "/") ∧ after = final := by
  intro body block state final quotient
  have hending : block.Ends state (.error (.divisionByZero "/"), final) := ⟨3, rfl⟩
  have hsteps : Config.Steps (.start block state)
      (.running [.assign "q" quotient, .loop .runBody (.ident "go") body] final) :=
    .head rfl <| .head rfl <| .head rfl <| .head rfl <| .head rfl <| .head rfl <| .head rfl <|
      .single rfl
  have hvalue : quotient.eval final.env = .error (.divisionByZero "/") := rfl
  obtain ⟨hruns, happends⟩ := ends_frame block
  obtain ⟨hframe, hwritten, -⟩ := hruns state final _ hending
  refine ⟨hending, happends, hsteps, hvalue, hframe, hwritten _ happends, ?_⟩
  intro result after hafter
  obtain ⟨-, -, hstops⟩ := hruns state after result hafter
  exact hstops "q" quotient _ final _ hsteps hvalue

end Machine

end PlZero
