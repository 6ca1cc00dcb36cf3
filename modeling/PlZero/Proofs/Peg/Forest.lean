import PlZero.Proofs.Peg.Calls

/-! # The nodes of a reading

The nodes that a parsing expression leaves have the form of the expression: one for every rule
that it calls, in the order of the text, and none for anything else. What is known of the nodes
of called rules is a parameter.
-/

namespace PlZero.Peg

variable {R : Type}

/-- Whether nodes have the form of a parsing expression, with a `leaf` for every call. -/
def Fits (leaf : R → Node R → Prop) : Peg R → List (Node R) → Prop
  | .seq first next, nodes =>
      ∃ start others, first.Fits leaf start ∧ next.Fits leaf others ∧ nodes = start ++ others
  | .choice first other, nodes => first.Fits leaf nodes ∨ other.Fits leaf nodes
  | .star body, nodes =>
      ∃ parts : List (List (Node R)), (∀ part ∈ parts, body.Fits leaf part) ∧ nodes = parts.flatten
  | .enter rule, nodes => ∃ node, leaf rule node ∧ nodes = [node]
  | .empty, nodes | .word _, nodes | .char _, nodes | .ahead _, nodes | .notAhead _, nodes =>
      nodes = []

/-- A place of a text. -/
def Cursor.In (text : List Char) (cursor : Cursor) : Prop := (Cursor.start text).Ahead 0 cursor

theorem Cursor.In.of_ahead {text : List Char} {cursor stop : Cursor} {least : Nat}
    (hcursor : cursor.In text) (hahead : cursor.Ahead least stop) : stop.In text :=
  (hcursor.trans hahead).weaken (Nat.zero_le _)

/-- The characters before a place and those behind it make up the text. -/
theorem Cursor.In.exists_eq_append {text : List Char} {cursor : Cursor} (hcursor : cursor.In text) :
    ∃ before, text = before ++ cursor.rest ∧ before.length = cursor.offset := by
  obtain ⟨count, -, hcount, rfl⟩ := hcursor
  refine ⟨text.take count, (List.take_append_drop count text).symm, ?_⟩
  simpa [start, advance] using Nat.min_eq_left hcount

section Read

variable {text : List Char} {leaf : R → Node R → Prop} {call : R → Reader R}
  {gap : Cursor → Cursor}

theorem repeatRead_fits {body : Peg R} {item : Reader R} (hgap : GapMoves gap)
    (hmoves : Moves 0 item)
    (hitem : ∀ cursor trace found after, cursor.In text →
      item cursor trace = (some found, after) → body.Fits leaf found.nodes)
    (bound : Nat) (cursor : Cursor) (trace : Trace R) (hcursor : cursor.In text) :
    (Peg.star body).Fits leaf (repeatRead gap item bound cursor trace).1.nodes := by
  induction bound generalizing cursor trace with
  | zero => exact ⟨[], by simp, rfl⟩
  | succ bound ih =>
      rw [repeatRead]
      have hstart := hcursor.of_ahead (hgap cursor)
      split
      next => exact ⟨[], by simp, rfl⟩
      next found after hread =>
        have hfirst := hitem _ _ _ _ hstart hread
        obtain ⟨parts, hparts, hothers⟩ :=
          ih found.stop after (hstart.of_ahead (hmoves _ _ _ _ hread))
        refine ⟨found.nodes :: parts, ?_, ?_⟩
        · simpa using ⟨hfirst, hparts⟩
        · simp [hothers]

/-- What a parsing expression leaves has its form, if the calls leave what is known of them. -/
theorem read_fits (hgap : GapMoves gap) (hmoves : ∀ rule, Moves 0 (call rule))
    (hcall : ∀ rule cursor trace found after, cursor.In text →
      call rule cursor trace = (some found, after) → (Peg.enter rule).Fits leaf found.nodes)
    (peg : Peg R) {cursor : Cursor} {trace after : Trace R} {found : Found R}
    (hcursor : cursor.In text) (hread : peg.read call gap cursor trace = (some found, after)) :
    peg.Fits leaf found.nodes := by
  have hahead := fun peg : Peg R =>
    @read_moves R call gap (fun _ => false) hgap (fun rule => hmoves rule) peg
  induction peg generalizing cursor trace after found with
  | empty =>
      cases hread
      rfl
  | word _ | char _ | ahead _ _ | notAhead _ _ =>
      rw [read] at hread
      split at hread
      all_goals (try split at hread) <;> cases hread <;> rfl
  | seq first next ihfirst ihnext =>
      rw [read] at hread
      split at hread
      next => cases hread
      next start middle hfirst =>
        split at hread
        next => cases hread
        next others last hnext =>
          cases hread
          have hstop := (hcursor.of_ahead (hahead first _ _ _ _ hfirst)).of_ahead (hgap start.stop)
          exact ⟨_, _, ihfirst hcursor hfirst, ihnext hstop hnext, rfl⟩
  | choice first other ihfirst ihother =>
      rw [read] at hread
      split at hread
      next => exact .inr (ihother hcursor hread)
      next hfirst =>
        cases hread
        exact .inl (ihfirst hcursor hfirst)
  | star body ih =>
      rw [read] at hread
      split at hread
      next =>
        cases hread
        exact ⟨[], by simp, rfl⟩
      next first middle hfirst =>
        have hbody : Moves 0 (body.read call gap) :=
          fun _ _ _ _ hread => (hahead body _ _ _ _ hread).weaken (Nat.zero_le _)
        obtain ⟨parts, hparts, hothers⟩ := repeatRead_fits hgap hbody
          (fun _ _ _ _ hcursor hread => ih hcursor hread) (first.stop.rest.length + 1) first.stop
          middle (hcursor.of_ahead (hbody _ _ _ _ hfirst))
        cases hread
        refine ⟨first.nodes :: parts, ?_, congrArg (first.nodes ++ ·) hothers⟩
        simpa using ⟨ih hcursor hfirst, hparts⟩
  | enter rule => exact hcall rule cursor trace found after hcursor hread

end Read

end PlZero.Peg

namespace PlZero.Grammar

open Peg

variable {R : Type} {grammar : Grammar R}

/-- If tokens are leaves, and nodes whose children have the form of their rule are leaves, then
whatever a rule leaves is a leaf. -/
theorem Ranked.exists_leaf_of_run (ranked : grammar.Ranked) {text : List Char}
    {leaf : R → Node R → Prop}
    (htoken : ∀ rule cursor node stop, grammar.isToken rule = true → cursor.In text →
      grammar.find false rule cursor = some ⟨[node], stop⟩ → leaf rule node)
    (hbody : ∀ rule offset run children, grammar.isToken rule = false →
      (grammar.body rule).Fits leaf children → leaf rule ⟨rule, offset, run, children⟩)
    {rule : R} {cursor : Cursor} {found : Found R} (hcursor : cursor.In text)
    (hfound : grammar.find false rule cursor = some found) :
    (Peg.enter rule).Fits leaf found.nodes := by
  -- Where a call stops matters as well, since what follows is read from there on.
  have hrun := ranked.run_induction
    (motive := fun rule cursor _ outcome => ∀ found after, outcome = (some found, after) →
      cursor.Ahead 0 found.stop ∧ (cursor.In text → (Peg.enter rule).Fits leaf found.nodes))
    (fun _ _ _ _ _ hnone => nomatch hnone) ?token ?body rule cursor .start
  · exact (hrun found _ (Prod.ext hfound rfl)).2 hcursor
  case token =>
    intro rule cursor trace hrule found after hread
    refine ⟨(ranked.run_moves false rule _ _ _ _ hread).weaken (Nat.zero_le _), fun hcursor => ?_⟩
    have hfind : grammar.find false rule cursor = some found := by
      rw [← run_fst false rule cursor trace, hread]
    obtain ⟨inner, -, rfl⟩ := Option.map_eq_some_iff.mp ((ranked.find_false rule cursor).symm.trans
      hfind)
    exact ⟨_, htoken rule cursor _ _ hrule hcursor hfind, rfl⟩
  case body =>
    intro call hcall rule cursor trace hrule found after hread
    have hmoves : ∀ rule, Moves (Bool.toNat false) (call rule) :=
      fun rule cursor trace found after hread => (hcall rule cursor trace found after hread).1
    cases hinner : (grammar.body rule).read call (grammar.gap false) cursor trace with
    | mk result middle =>
        rw [hinner] at hread
        cases result with
        | none => cases hread
        | some inner =>
            cases hread
            refine ⟨(read_moves (grammar.gap_moves false) hmoves _ _ _ _ _ hinner).weaken
              (Nat.zero_le _), fun hcursor => ⟨_, hbody rule _ _ _ hrule ?_, rfl⟩⟩
            exact read_fits (grammar.gap_moves false) hmoves
              (fun rule cursor trace found after hcursor hread =>
                (hcall rule cursor trace found after hread).2 hcursor)
              _ hcursor hinner

end PlZero.Grammar
