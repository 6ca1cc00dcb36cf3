import PlZero.Proofs.Exec.Refinement
import PlZero.Proofs.Exec.Sinks

/-! # Runs that are cut

A run whose sink fills up keeps in step with the run whose sink accepts everything, up to the
print that goes past the room of the sink. There it stops: only a print looks at the sink, so
nothing before that print was different.
-/

namespace PlZero.Machine

variable {limit : Nat} {refusal : Refusal}

section Frame

variable {Out : Type}

namespace Config

/-- The state of the machine. -/
def state : Config Out → State Out
  | .running _ state => state
  | .stopped _ state => state

/-- The same with another sink. -/
def withSink (sink : Out) : Config Out → Config Out
  | .running pending state => .running pending { state with sink }
  | .stopped fault state => .stopped fault { state with sink }

theorem state_withSink (config : Config Out) (sink : Out) :
    (config.withSink sink).state = { config.state with sink } := by
  cases config <;> rfl

theorem state_of_ending? {config : Config Out} {ending : Ending Out}
    (hending : config.ending? = some ending) : config.state = ending.2 := by
  rcases config with ⟨_ | ⟨work, pending⟩, state⟩ | ⟨fault, state⟩
  · exact congrArg Prod.snd (Option.some_inj.mp hending)
  · cases hending
  · exact congrArg Prod.snd (Option.some_inj.mp hending)

theorem ending?_withSink {config : Config Out} {ending : Ending Out}
    (hending : config.ending? = some ending) (sink : Out) :
    (config.withSink sink).ending? = some (ending.1, { ending.2 with sink }) := by
  rcases config with ⟨_ | ⟨work, pending⟩, state⟩ | ⟨fault, state⟩
  · obtain rfl := Option.some_inj.mp hending
    rfl
  · cases hending
  · obtain rfl := Option.some_inj.mp hending
    rfl

end Config

variable [Output Out]

/-- Work that prints a value looks at the sink. Any other work does the same with every sink, and
leaves it as it is. -/
theorem Work.prints_or_step_withSink (work : Work) (pending : List Work) (state : State Out) :
    (∃ value printed, work = .print value ∧ value.eval state.env = .ok printed) ∨
      ∀ sink, work.step pending { state with sink } = (work.step pending state).withSink sink := by
  cases work with
  | assign name value =>
      refine .inr fun sink => ?_
      rw [step, step]
      rcases value.eval state.env with _ | _ <;> rfl
  | print value =>
      rcases hvalue : value.eval state.env with fault | printed
      · refine .inr fun sink => ?_
        rw [step, step, hvalue]
        rfl
      · exact .inl ⟨value, printed, rfl, hvalue⟩
  | branch condition yes no =>
      refine .inr fun sink => ?_
      rw [step, step]
      rcases condition.test "if" state.env with _ | _ | _ <;> rfl
  | loop phase condition body =>
      refine .inr fun sink => ?_
      cases phase with
      | checkCondition =>
          rw [step, step]
          rcases condition.test "while" state.env with _ | _ | _ <;> rfl
      | runBody => rfl

theorem Config.step?_print {value : Expr} {shown : Value} (pending : List Work)
    (state : State Out) (hvalue : value.eval state.env = .ok shown) :
    (Config.running (.print value :: pending) state).step? =
      some (resume pending (state.print shown)) := by
  rw [step?, Work.step, hvalue]

end Frame

namespace Config

variable {config before after reached : Config Sink}

/-- The same machine with room for `limit` bytes in its sink. -/
def restrict (config : Config Sink) (limit : Nat) (refusal : Refusal) : Config Sink :=
  config.withSink (config.state.sink.restrict limit refusal)

/-- A print that goes past `limit` bytes comes up, in this state. -/
def CrossesIn (config : Config Sink) (limit : Nat) (before : State) : Prop :=
  ∃ value pending shown, Steps config (.running (.print value :: pending) before) ∧
    value.eval before.env = .ok shown ∧ before.sink.written.size ≤ limit ∧
      limit < (before.print shown).2.sink.written.size

/-- A step with a sink that accepts everything prints a line, or has nothing to do with it. -/
theorem step_cases (hopen : before.state.sink.limit? = none)
    (hstep : before.step? = some after) :
    (∃ value pending shown state, before = .running (.print value :: pending) state ∧
      value.eval state.env = .ok shown ∧ after = .running pending (state.printed shown)) ∨
      after.state.sink = before.state.sink ∧
        ∀ sink, (before.withSink sink).step? = some (after.withSink sink) := by
  rcases before with ⟨_ | ⟨work, pending⟩, state⟩ | ⟨fault, state⟩
  · cases hstep
  · obtain rfl := Option.some_inj.mp hstep
    obtain ⟨value, shown, rfl, hvalue⟩ | hsilent := work.prints_or_step_withSink pending state
    · refine .inl ⟨value, pending, shown, state, rfl, hvalue, ?_⟩
      rw [Work.step, hvalue]
      exact congrArg (resume pending) (State.print_of_open hopen shown)
    · refine .inr ⟨?_, fun sink => congrArg some (hsilent sink)⟩
      -- With the sink it has, the step is one that puts this sink back in place.
      have hsame : work.step pending state = _ := hsilent state.sink
      rw [hsame, state_withSink]
      rfl
  · cases hstep

theorem accepts_of_step (hopen : before.state.sink.limit? = none)
    (hstep : before.step? = some after) :
    ∃ bytes, after.state.sink = before.state.sink.accept bytes := by
  obtain ⟨value, pending, shown, state, rfl, hvalue, rfl⟩ | ⟨hsink, -⟩ := step_cases hopen hstep
  · exact ⟨_, rfl⟩
  · exact ⟨.empty, by rw [hsink, Sink.accept_empty]⟩

theorem restrict_step_of_le (hopen : before.state.sink.limit? = none)
    (hstep : before.step? = some after) (hroom : after.state.sink.written.size ≤ limit) :
    (before.restrict limit refusal).step? = some (after.restrict limit refusal) := by
  obtain ⟨value, pending, shown, state, rfl, hvalue, rfl⟩ | ⟨hsink, hsilent⟩ :=
    step_cases hopen hstep
  · have hline := step?_print pending (state.restrict limit refusal) hvalue
    rw [State.print_restrict_of_le hroom] at hline
    exact hline
  · rw [restrict, restrict, hsink, hsilent]

theorem restrict_step_of_lt (hopen : before.state.sink.limit? = none)
    (hstep : before.step? = some after) (hbefore : before.state.sink.written.size ≤ limit)
    (hafter : limit < after.state.sink.written.size) :
    before.CrossesIn limit before.state ∧
      (before.restrict limit refusal).step? = some (.stopped (.output refusal.reason)
        { before.state with sink := after.state.sink.restrict limit refusal }) := by
  obtain ⟨value, pending, shown, state, rfl, hvalue, rfl⟩ | ⟨hsink, hsilent⟩ :=
    step_cases hopen hstep
  · have hcut : limit < (state.print shown).2.sink.written.size := by
      rw [@State.print_of_open state hopen]
      exact hafter
    refine ⟨⟨value, pending, shown, .refl, hvalue, hbefore, hcut⟩, ?_⟩
    have hline := step?_print pending (state.restrict limit refusal) hvalue
    rw [@State.print_restrict_of_lt state limit refusal shown hbefore hafter] at hline
    exact hline
  · rw [hsink] at hafter
    exact absurd hbefore (Nat.not_le.mpr hafter)

theorem CrossesIn.of_steps {state : State} (hsteps : Steps config before)
    (hcrosses : before.CrossesIn limit state) : config.CrossesIn limit state := by
  obtain ⟨value, pending, shown, hprint, hline⟩ := hcrosses
  exact ⟨value, pending, shown, hsteps.trans hprint, hline⟩

/-- A machine with room for `limit` bytes keeps in step, or it has stopped at the print that went
past them. -/
theorem restrict_steps (hopen : config.state.sink.limit? = none)
    (hroom : config.state.sink.written.size ≤ limit) (hsteps : Steps config reached) :
    reached.state.sink.limit? = none ∧
      (reached.state.sink.written.size ≤ limit →
        Steps (config.restrict limit refusal) (reached.restrict limit refusal)) ∧
      (limit < reached.state.sink.written.size →
        ∃ before, config.CrossesIn limit before ∧ Steps (config.restrict limit refusal)
          (.stopped (.output refusal.reason)
            { before with sink := reached.state.sink.restrict limit refusal })) := by
  induction hsteps with
  | refl => exact ⟨hopen, fun _ => .refl, fun hcut => absurd hroom (Nat.not_le.mpr hcut)⟩
  | @tail middle after hsteps hstep ih =>
      obtain ⟨hmiddle, hfits, hcut⟩ := ih
      obtain ⟨bytes, haccept⟩ := accepts_of_step hmiddle hstep
      have hsize : after.state.sink.written.size =
          middle.state.sink.written.size + bytes.size := by
        rw [haccept, Sink.written_accept, ByteArray.size_append]
      refine ⟨by rw [haccept]; exact hmiddle, fun hle => ?_, fun hlt => ?_⟩
      · exact (hfits (by omega)).tail (restrict_step_of_le hmiddle hstep hle)
      · by_cases hle : middle.state.sink.written.size ≤ limit
        · obtain ⟨hcrosses, hstop⟩ := restrict_step_of_lt hmiddle hstep hle hlt
          exact ⟨middle.state, .of_steps hsteps hcrosses, (hfits hle).tail hstop⟩
        · -- It has stopped before, and what is printed since is beyond its room.
          obtain ⟨before, hcrosses, hstopped⟩ := hcut (Nat.not_le.mp hle)
          rw [haccept, Sink.restrict_accept_of_full (Nat.le_of_not_le hle)]
          exact ⟨before, hcrosses, hstopped⟩

end Config

/-- A run that ends also ends with a sink that accepts `limit` bytes. If they are enough, it ends
in the same way. Otherwise the first `limit` bytes are accepted, and the run ends with a fault of
the output and the variables that there were before the print that went past them. -/
theorem ends_with_limit {block : Block} {env : Environment} {result : Except Fault Unit}
    {final : State} (limit : Nat) (refusal : Refusal)
    (hending : block.Ends (State.mk env Sink.unlimited) (result, final)) :
    (final.sink.written.size ≤ limit →
      block.Ends (State.mk env (Sink.limited limit refusal))
        (result, State.mk final.env (Sink.mk (some limit) refusal final.sink.written))) ∧
      (limit < final.sink.written.size →
        ∃ before, (Config.start block (State.mk env Sink.unlimited)).CrossesIn limit before ∧
          block.Ends (State.mk env (Sink.limited limit refusal))
            (.error (.output refusal.reason), State.mk before.env
              (Sink.mk (some limit) refusal (final.sink.written.extract 0 limit)))) := by
  obtain ⟨reached, hsteps, hreached⟩ := (Config.ends_iff_exists_steps _ _ _).mp hending
  have hstart : (Config.start block (State.mk env Sink.unlimited)).restrict limit refusal =
      .start block (State.mk env (Sink.limited limit refusal)) := by
    rw [Config.restrict, Config.start, Config.withSink, Sink.restrict_of_le (Nat.zero_le limit)]
    rfl
  have hfinal : reached.state = final := Config.state_of_ending? hreached
  obtain ⟨-, hfits, hcut⟩ := @Config.restrict_steps limit refusal _ _ rfl (Nat.zero_le _) hsteps
  rw [hstart, hfinal] at hfits hcut
  refine ⟨fun hle => ?_, fun hlt => ?_⟩
  · have hended := Config.ending?_withSink hreached (reached.state.sink.restrict limit refusal)
    rw [hfinal, Sink.restrict_of_le hle] at hended
    refine (Config.ends_iff_exists_steps _ _ _).mpr ⟨_, hfits hle, ?_⟩
    rw [Config.restrict, hfinal, Sink.restrict_of_le hle]
    exact hended
  · obtain ⟨before, hcrosses, hstopped⟩ := hcut hlt
    exact ⟨before, hcrosses, (Config.ends_iff_exists_steps _ _ _).mpr ⟨_, hstopped, rfl⟩⟩

/-- The variable is kept, and nothing fits of the line that comes after it. -/
theorem ends_with_limit_between_lines :
    ∃ before, (Config.start [.print (.str "ab"), .assign "x" (.int 1), .print (.str "")]
        (State.mk .empty Sink.unlimited)).CrossesIn 3 before ∧
      Block.Ends [.print (.str "ab"), .assign "x" (.int 1), .print (.str "")]
        (State.mk .empty (Sink.limited 3 .stalled))
        (.error (.output "failed to write whole buffer"), State.mk before.env
          (Sink.mk (some 3) .stalled ("ab\n\n".toUTF8.extract 0 3))) :=
  (@ends_with_limit _ _ (.ok ()) (State.mk (Environment.empty.assign "x" (.integer 1))
    (Sink.unlimited.accept "ab\n\n".toUTF8)) 3 .stalled ⟨0, rfl⟩).2 (by decide)

end PlZero.Machine
