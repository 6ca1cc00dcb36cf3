import PlZero.Proofs.Peg.Scan

/-! # Induction along calls

A call of a rule makes calls of less weight only, as the text gets shorter or the rank goes down.
So what holds of every call outside tokens can be shown for one rule at a time: its body may be
read as if the calls in it did nothing but what is claimed of them.
-/

namespace PlZero.Grammar

open Peg

variable {R : Type} {grammar : Grammar R}

/-- What a rule makes of a reading of its body: a node around it, or a note of its failure. -/
def conclude (rule : R) (cursor : Cursor) (trace : Trace R) : Outcome R → Outcome R
  | (some found, after) => (some (enclose rule cursor found), after)
  | (none, after) => (none, after.record rule cursor.offset (trace.count cursor.offset))

namespace Ranked

variable (ranked : grammar.Ranked)

/-- What goes down along calls: the characters left first, then the rank. -/
def weight (rule : R) (cursor : Cursor) : Nat :=
  cursor.rest.length * grammar.rules.length + ranked.rank rule

/-- Calls outside tokens of less than some weight, with other calls in place of all others. -/
def callsBelow (others : R → Reader R) (bound : Nat) (rule : R) : Reader R := fun cursor trace =>
  if ranked.weight rule cursor < bound then grammar.run false rule cursor trace
  else others rule cursor trace

include ranked

theorem run_eq_conclude (rule : R) (cursor : Cursor) (trace : Trace R) :
    grammar.run false rule cursor trace =
      conclude rule cursor trace ((grammar.body rule).read (grammar.run (grammar.isToken rule))
        (grammar.gap (grammar.isToken rule)) cursor trace) := by
  rw [ranked.run_false]
  rcases Peg.read _ _ _ cursor trace with ⟨_ | found, after⟩ <;> rfl

/-- The body of a rule only makes calls of less weight than the rule. -/
theorem read_callsBelow (others : R → Reader R) (rule : R) (cursor : Cursor) (trace : Trace R) :
    (grammar.body rule).read (grammar.run false) (grammar.gap false) cursor trace =
      (grammar.body rule).read (ranked.callsBelow others (ranked.weight rule cursor))
        (grammar.gap false) cursor trace := by
  refine read_congr (grammar.gap_moves false) (ranked.run_moves false) ?_ _ _
    (ranked.guarded_body rule) cursor trace (Nat.le_refl _)
  intro rule' cursor' trace' hless
  exact (if_pos hless).symm

/-- A property of calls outside tokens that some calls have at all, that tokens have, and that a
rule has if all calls in its body have it. -/
theorem run_induction_of {motive : R → Cursor → Trace R → Outcome R → Prop}
    {others : R → Reader R}
    (hothers : ∀ rule cursor trace, motive rule cursor trace (others rule cursor trace))
    (htoken : ∀ rule cursor trace, grammar.isToken rule = true →
      motive rule cursor trace (grammar.run false rule cursor trace))
    (hbody : ∀ call : R → Reader R,
      (∀ rule cursor trace, motive rule cursor trace (call rule cursor trace)) →
      ∀ rule cursor trace, grammar.isToken rule = false →
        motive rule cursor trace (conclude rule cursor trace
          ((grammar.body rule).read call (grammar.gap false) cursor trace)))
    (rule : R) (cursor : Cursor) (trace : Trace R) :
    motive rule cursor trace (grammar.run false rule cursor trace) := by
  induction hweight : ranked.weight rule cursor using Nat.strongRecOn
    generalizing rule cursor trace with
  | ind weight ih =>
      cases hrule : grammar.isToken rule with
      | true => exact htoken rule cursor trace hrule
      | false =>
          rw [ranked.run_eq_conclude, hrule, ranked.read_callsBelow others, hweight]
          apply hbody _ _ rule cursor trace hrule
          intro rule' cursor' trace'
          unfold callsBelow
          split
          next hless => exact ih _ hless rule' cursor' trace' rfl
          next => exact hothers rule' cursor' trace'

/-- A property that a failure without notes has may be shown in the same way. -/
theorem run_induction {motive : R → Cursor → Trace R → Outcome R → Prop}
    (hnone : ∀ rule cursor trace, motive rule cursor trace (none, trace))
    (htoken : ∀ rule cursor trace, grammar.isToken rule = true →
      motive rule cursor trace (grammar.run false rule cursor trace))
    (hbody : ∀ call : R → Reader R,
      (∀ rule cursor trace, motive rule cursor trace (call rule cursor trace)) →
      ∀ rule cursor trace, grammar.isToken rule = false →
        motive rule cursor trace (conclude rule cursor trace
          ((grammar.body rule).read call (grammar.gap false) cursor trace)))
    (rule : R) (cursor : Cursor) (trace : Trace R) :
    motive rule cursor trace (grammar.run false rule cursor trace) :=
  ranked.run_induction_of hnone htoken hbody rule cursor trace

end Ranked

end PlZero.Grammar

namespace PlZero.Peg

variable {R : Type}

/-- A sequence fails where one of its parts does. -/
theorem read_seq_eq_none {call : R → Reader R} {gap : Cursor → Cursor} {first next : Peg R}
    {cursor : Cursor} {trace after : Trace R}
    (hread : (Peg.seq first next).read call gap cursor trace = (none, after)) :
    first.read call gap cursor trace = (none, after) ∨
      ∃ found middle, first.read call gap cursor trace = (some found, middle) ∧
        next.read call gap (gap found.stop) middle = (none, after) := by
  rw [read] at hread
  split at hread
  next later hfirst =>
    cases hread
    exact .inl hfirst
  next found middle hfirst =>
    split at hread
    next later hnext =>
      cases hread
      exact .inr ⟨found, middle, hfirst, hnext⟩
    next => cases hread

/-- Where the first part of a sequence has been found, the second one is read behind it. -/
theorem read_seq_of_some {call : R → Reader R} {gap : Cursor → Cursor} {first : Peg R}
    {cursor : Cursor} {trace later : Trace R} {found : Found R}
    (hread : first.read call gap cursor trace = (some found, later)) (next : Peg R) :
    (Peg.seq first next).read call gap cursor trace =
      ((next.read call gap (gap found.stop) later).1.map found.append,
        (next.read call gap (gap found.stop) later).2) := by
  rw [read, hread]
  simp only
  rcases next.read call gap (gap found.stop) later with ⟨_ | others, last⟩ <;> rfl

/-- Sequences read the same however they are grouped. -/
theorem read_seq_assoc (call : R → Reader R) (gap : Cursor → Cursor) (first next last : Peg R)
    (cursor : Cursor) (trace : Trace R) :
    (Peg.seq first (.seq next last)).read call gap cursor trace =
      (Peg.seq (.seq first next) last).read call gap cursor trace := by
  simp only [read]
  rcases first.read call gap cursor trace with ⟨_ | found, after⟩
  · rfl
  · simp only
    rcases next.read call gap (gap found.stop) after with ⟨_ | others, later⟩
    · rfl
    · simp only
      rcases last.read call gap (gap others.stop) later with ⟨_ | rest, last⟩
      · rfl
      · simp only [List.append_assoc]

/-! ## Repetitions -/

/-- The items of a repetition and what is noted on the way, up to an attempt that fails. -/
inductive ReadsItems (gap : Cursor → Cursor) (item : Reader R) :
    Cursor → Trace R → Found R → Trace R → Prop where
  | stop {cursor : Cursor} {trace later : Trace R}
      (hnone : item (gap cursor) trace = (none, later)) :
      ReadsItems gap item cursor trace ⟨[], cursor⟩ later
  | more {cursor : Cursor} {trace middle later : Trace R} {found others : Found R}
      (hfound : item (gap cursor) trace = (some found, middle))
      (hothers : ReadsItems gap item found.stop middle others later) :
      ReadsItems gap item cursor trace (found.append others) later

theorem readsItems_repeatRead {gap : Cursor → Cursor} {item : Reader R} (hgap : GapMoves gap)
    (hitem : Moves 1 item) {bound : Nat} {cursor : Cursor} (hbound : cursor.rest.length < bound)
    (trace : Trace R) :
    ReadsItems gap item cursor trace (repeatRead gap item bound cursor trace).1
      (repeatRead gap item bound cursor trace).2 := by
  induction bound generalizing cursor trace with
  | zero => exact absurd hbound (Nat.not_lt_zero _)
  | succ bound ih =>
      rw [repeatRead]
      split
      next hnone => exact .stop hnone
      next found middle hfound =>
        have hskip := (hgap cursor).length_le
        have hstop := (hitem _ _ _ _ hfound).length_le
        exact .more hfound (ih (by omega) middle)

/-- Where no gap is left to skip, a repetition reads its items. -/
theorem exists_read_star {call : R → Reader R} {gap : Cursor → Cursor} {body : Peg R}
    (hgap : GapMoves gap) (hbody : Moves 1 (body.read call gap)) {cursor : Cursor}
    (hcursor : gap cursor = cursor) (trace : Trace R) :
    ∃ found later, (Peg.star body).read call gap cursor trace = (some found, later) ∧
      ReadsItems gap (body.read call gap) cursor trace found later := by
  rw [read]
  split
  next hnone => exact ⟨_, _, rfl, .stop (hcursor.symm ▸ hnone)⟩
  next first middle hfirst =>
    exact ⟨_, _, rfl, .more (hcursor.symm ▸ hfirst)
      (readsItems_repeatRead hgap hbody (Nat.lt_succ_self _) middle)⟩

end PlZero.Peg
