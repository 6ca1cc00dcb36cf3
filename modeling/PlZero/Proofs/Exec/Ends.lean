import PlZero.Exec

/-! # Runs that end

A run that ends does so in the same way under every greater budget. So the budget can be left
out: a block ends in some way from a state if it does so under some budget. Such runs are put
together from the runs of their parts, and a loop that goes on is its body with the loop behind
it.
-/

namespace PlZero

variable {Out : Type} {budget more : Nat} {state : State Out} {ending : Ending Out}

/-- Goes on from a run that ended without a fault. -/
def Ending.andThen (outcome : Option (Ending Out)) (next : State Out → Option (Ending Out)) :
    Option (Ending Out) :=
  match outcome with
  | some (.ok (), state) => next state
  | stopped => stopped

theorem Ending.andThen_eq_some_iff {outcome : Option (Ending Out)}
    {next : State Out → Option (Ending Out)} :
    andThen outcome next = some ending ↔
      (∃ middle, outcome = some (.ok (), middle) ∧ next middle = some ending) ∨
        ∃ fault middle,
          outcome = some (.error fault, middle) ∧ ending = (.error fault, middle) := by
  rcases outcome with _ | ⟨fault | ⟨⟩, middle⟩
  · simp [andThen]
  · constructor
    · intro hending
      exact .inr ⟨fault, middle, rfl, (Option.some_inj.mp hending).symm⟩
    · rintro (⟨_, houtcome, -⟩ | ⟨_, _, houtcome, rfl⟩)
      · cases houtcome
      · exact houtcome
  · simp [andThen]

theorem Ending.andThen_mono {outcome outcome' : Option (Ending Out)}
    {next next' : State Out → Option (Ending Out)}
    (houtcome : ∀ ending, outcome = some ending → outcome' = some ending)
    (hnext : ∀ middle ending, next middle = some ending → next' middle = some ending)
    (hending : andThen outcome next = some ending) : andThen outcome' next' = some ending := by
  obtain ⟨middle, hfirst, hrest⟩ | ⟨fault, middle, hfirst, rfl⟩ := andThen_eq_some_iff.mp hending
  · exact andThen_eq_some_iff.mpr (.inl ⟨middle, houtcome _ hfirst, hnext _ _ hrest⟩)
  · exact andThen_eq_some_iff.mpr (.inr ⟨fault, middle, houtcome _ hfirst, rfl⟩)

theorem Ending.andThen_assoc (outcome : Option (Ending Out))
    (next after : State Out → Option (Ending Out)) :
    andThen (andThen outcome next) after =
      andThen outcome fun middle => andThen (next middle) after := by
  rcases outcome with _ | ⟨fault | ⟨⟩, middle⟩ <;> rfl

theorem repeatWhile_succ (condition : Environment → Except Fault Bool)
    (body : State Out → Option (Ending Out)) (budget : Nat) (state : State Out) :
    repeatWhile condition body (budget + 1) state =
      match condition state.env with
      | .error fault => some (.error fault, state)
      | .ok false => some (.ok (), state)
      | .ok true => Ending.andThen (body state) (repeatWhile condition body budget) := by
  rw [repeatWhile]
  rcases condition state.env with fault | _ | _
  · rfl
  · rfl
  · rcases body state with _ | ⟨fault | ⟨⟩, middle⟩ <;> rfl

theorem repeatWhile_mono {condition : Environment → Except Fault Bool}
    {body body' : State Out → Option (Ending Out)}
    (hbody : ∀ state ending, body state = some ending → body' state = some ending)
    (hle : budget ≤ more) (hending : repeatWhile condition body budget state = some ending) :
    repeatWhile condition body' more state = some ending := by
  induction budget generalizing more state ending with
  | zero => cases hending
  | succ budget ih =>
      obtain ⟨more, rfl⟩ := Nat.exists_eq_add_of_le' hle
      rw [repeatWhile_succ] at hending
      rw [← Nat.add_assoc, repeatWhile_succ]
      split at hending
      next => exact hending
      next => exact hending
      next => exact Ending.andThen_mono (hbody state) (fun _ _ => ih (by omega)) hending

section Exec

variable [Output Out]

theorem Block.exec_cons (budget : Nat) (first : Stmt) (others : Block) (state : State Out) :
    Block.exec budget (first :: others) state =
      Ending.andThen (first.exec budget state) (Block.exec budget others) := by
  rw [Block.exec]
  rcases first.exec budget state with _ | ⟨fault | ⟨⟩, middle⟩ <;> rfl

mutual

theorem Stmt.exec_mono (hle : budget ≤ more) (stmt : Stmt) {state : State Out}
    {ending : Ending Out} (hending : stmt.exec budget state = some ending) :
    stmt.exec more state = some ending := by
  cases stmt with
  | assign name value => rwa [Stmt.exec] at hending ⊢
  | print value => rwa [Stmt.exec] at hending ⊢
  | branch condition yes no =>
      rw [Stmt.exec] at hending ⊢
      split at hending
      next => exact Block.exec_mono hle yes hending
      next => exact Block.exec_mono hle no hending
      next => exact hending
  | loop condition body =>
      rw [Stmt.exec] at hending ⊢
      exact repeatWhile_mono (fun _ _ => Block.exec_mono hle body) hle hending

/-- A run that ends is the same under every greater budget. -/
theorem Block.exec_mono (hle : budget ≤ more) (block : Block) {state : State Out}
    {ending : Ending Out} (hending : Block.exec budget block state = some ending) :
    Block.exec more block state = some ending := by
  cases block with
  | nil => exact hending
  | cons first others =>
      rw [Block.exec_cons] at hending ⊢
      exact Ending.andThen_mono (fun _ => Stmt.exec_mono hle first)
        (fun _ _ => Block.exec_mono hle others) hending

end

theorem Block.exec_append (budget : Nat) (first next : Block) (state : State Out) :
    Block.exec budget (first ++ next) state =
      Ending.andThen (Block.exec budget first state) (Block.exec budget next) := by
  induction first generalizing state with
  | nil => rfl
  | cons stmt first ih =>
      rw [List.cons_append, exec_cons, exec_cons]
      rcases stmt.exec budget state with _ | ⟨fault | ⟨⟩, middle⟩
      · rfl
      · rfl
      · exact ih middle

/-- A block ends in some way from a state. -/
def Block.Ends (block : Block) (state : State Out) (ending : Ending Out) : Prop :=
  ∃ budget, Block.exec budget block state = some ending

namespace Block.Ends

variable {block next : Block} {condition : Expr} {body : Block}

theorem unique {other : Ending Out} (hending : Ends block state ending)
    (hother : Ends block state other) : ending = other := by
  obtain ⟨budget, hending⟩ := hending
  obtain ⟨more, hother⟩ := hother
  have hleft := exec_mono (Nat.le_max_left budget more) block hending
  have hright := exec_mono (Nat.le_max_right budget more) block hother
  exact Option.some_inj.mp (hleft.symm.trans hright)

theorem nil_iff : Ends [] state ending ↔ ending = (.ok (), state) := by
  constructor
  · rintro ⟨budget, hending⟩
    exact (Option.some_inj.mp hending).symm
  · rintro rfl
    exact ⟨0, rfl⟩

/-- A first statement that ends at once in every case is done with. -/
theorem cons_iff_of_ok {stmt : Stmt} {middle : State Out}
    (hstmt : ∀ budget, stmt.exec budget state = some (.ok (), middle)) :
    Ends (stmt :: next) state ending ↔ Ends next middle ending := by
  refine exists_congr fun budget => ?_
  rw [exec_cons, hstmt]
  rfl

theorem cons_iff_of_error {stmt : Stmt} {fault : Fault} {middle : State Out}
    (hstmt : ∀ budget, stmt.exec budget state = some (.error fault, middle)) :
    Ends (stmt :: next) state ending ↔ ending = (.error fault, middle) := by
  constructor
  · rintro ⟨budget, hending⟩
    rw [exec_cons, hstmt] at hending
    exact (Option.some_inj.mp hending).symm
  · rintro rfl
    refine ⟨0, ?_⟩
    rw [exec_cons, hstmt]
    rfl

theorem branch_iff_of_true {yes no : Block} (htest : condition.test "if" state.env = .ok true) :
    Ends (.branch condition yes no :: next) state ending ↔ Ends (yes ++ next) state ending := by
  refine exists_congr fun budget => ?_
  rw [exec_cons, exec_append, Stmt.exec, htest]

theorem branch_iff_of_false {yes no : Block} (htest : condition.test "if" state.env = .ok false) :
    Ends (.branch condition yes no :: next) state ending ↔ Ends (no ++ next) state ending := by
  refine exists_congr fun budget => ?_
  rw [exec_cons, exec_append, Stmt.exec, htest]

theorem loop_iff_of_false (htest : condition.test "while" state.env = .ok false) :
    Ends (.loop condition body :: next) state ending ↔ Ends next state ending := by
  constructor
  · rintro ⟨budget, hending⟩
    refine ⟨budget, ?_⟩
    rw [exec_cons, Stmt.exec] at hending
    cases budget with
    | zero => cases hending
    | succ budget =>
        rw [repeatWhile_succ, htest] at hending
        exact hending
  · rintro ⟨budget, hending⟩
    -- Checking the condition once takes a budget of its own.
    refine ⟨budget + 1, ?_⟩
    rw [exec_cons, Stmt.exec, repeatWhile_succ, htest]
    exact exec_mono (Nat.le_succ budget) next hending

theorem loop_iff_of_error {fault : Fault}
    (htest : condition.test "while" state.env = .error fault) :
    Ends (.loop condition body :: next) state ending ↔ ending = (.error fault, state) := by
  constructor
  · rintro ⟨budget, hending⟩
    rw [exec_cons, Stmt.exec] at hending
    cases budget with
    | zero => cases hending
    | succ budget =>
        rw [repeatWhile_succ, htest] at hending
        exact (Option.some_inj.mp hending).symm
  · rintro rfl
    refine ⟨1, ?_⟩
    rw [exec_cons, Stmt.exec, repeatWhile_succ, htest]
    rfl

/-- A loop that goes on is its body with the loop behind it. -/
theorem loop_iff_of_true (htest : condition.test "while" state.env = .ok true) :
    Ends (.loop condition body :: next) state ending ↔
      Ends (body ++ .loop condition body :: next) state ending := by
  constructor
  · rintro ⟨budget, hending⟩
    refine ⟨budget, ?_⟩
    rw [exec_cons, Stmt.exec] at hending
    rw [exec_append]
    cases budget with
    | zero => cases hending
    | succ budget =>
        rw [repeatWhile_succ, htest, Ending.andThen_assoc] at hending
        refine Ending.andThen_mono (fun _ => id) (fun middle _ => ?_) hending
        rw [exec_cons, Stmt.exec]
        -- The rest of the loop has one check less to make, so it may as well have it.
        exact Ending.andThen_mono
          (fun _ => repeatWhile_mono (fun _ _ => id) (Nat.le_succ budget)) (fun _ _ => id)
  · rintro ⟨budget, hending⟩
    refine ⟨budget + 1, ?_⟩
    rw [exec_append] at hending
    rw [exec_cons, Stmt.exec, repeatWhile_succ, htest, Ending.andThen_assoc]
    refine Ending.andThen_mono (fun _ => exec_mono (Nat.le_succ budget) body)
      (fun middle _ hrest => ?_) hending
    rw [exec_cons, Stmt.exec] at hrest
    exact Ending.andThen_mono
      (fun _ => repeatWhile_mono (fun _ _ => exec_mono (Nat.le_succ budget) body) (Nat.le_refl _))
      (fun _ _ => exec_mono (Nat.le_succ budget) next) hrest

end Block.Ends

end Exec

end PlZero
