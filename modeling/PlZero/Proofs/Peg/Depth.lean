import PlZero.Proofs.Peg.Progress

/-! # The depth of calls suffices

A grammar in which no rule calls itself at its own start gives every rule a rank: what a rule
calls before it has taken a character has a smaller rank. Then the number of characters left and
the rank go down together along every chain of calls, so a deep enough reading no longer depends
on its depth, and the meaning of a rule can be stated without one.
-/

namespace PlZero.Peg

variable {R : Type}

/-- Whatever is called before a character was taken has a rank below `bound`, whatever is called
later one below `height`, and every repeated item takes a character. -/
def guarded (known : R → Bool) (rank : R → Nat) (height : Nat) : Nat → Peg R → Bool
  | bound, .seq first next =>
      first.guarded known rank height bound &&
        next.guarded known rank height (if first.eats known then height else bound)
  | bound, .choice first other =>
      first.guarded known rank height bound && other.guarded known rank height bound
  | bound, .star body => body.eats known && body.guarded known rank height bound
  | bound, .ahead body | bound, .notAhead body => body.guarded known rank height bound
  | bound, .enter rule => decide (rank rule < bound)
  | _, .empty | _, .word _ | _, .char _ => true

/-- Two ways to call rules agree on all calls whose characters left and rank weigh less than
`weight`. -/
def AgreeBelow (rank : R → Nat) (height weight : Nat) (left right : R → Reader R) : Prop :=
  ∀ rule cursor trace, cursor.rest.length * height + rank rule < weight →
    left rule cursor trace = right rule cursor trace

theorem repeatRead_congr {gap : Cursor → Cursor} {left right : Reader R} {length : Nat}
    (hgap : GapMoves gap) (hmoves : Moves 0 left)
    (hagree : ∀ cursor trace, cursor.rest.length ≤ length → left cursor trace = right cursor trace)
    (bound : Nat) (cursor : Cursor) (trace : Trace R) (hlength : cursor.rest.length ≤ length) :
    repeatRead gap left bound cursor trace = repeatRead gap right bound cursor trace := by
  induction bound generalizing cursor trace with
  | zero => rfl
  | succ bound ih =>
      have hskip := (hgap cursor).length_le
      rw [repeatRead, repeatRead, ← hagree _ trace (by omega)]
      cases hread : left (gap cursor) trace with
      | mk result after =>
          cases result with
          | none => rfl
          | some found =>
              have hstop := (hmoves _ _ _ _ hread).length_le
              simp only [ih found.stop after (by omega)]

/-- A guarded reading only depends on the calls that weigh less than its start. -/
theorem read_congr {known : R → Bool} {rank : R → Nat} {height weight : Nat}
    {left right : R → Reader R} {gap : Cursor → Cursor} (hgap : GapMoves gap)
    (hmoves : ∀ rule, Moves (known rule).toNat (left rule))
    (hagree : AgreeBelow rank height weight left right) (peg : Peg R) (bound : Nat)
    (hguarded : peg.guarded known rank height bound) (cursor : Cursor) (trace : Trace R)
    (hweight : cursor.rest.length * height + bound ≤ weight) :
    peg.read left gap cursor trace = peg.read right gap cursor trace := by
  induction peg generalizing bound cursor trace with
  | empty | word _ | char _ => rfl
  | seq first next ihfirst ihnext =>
      rw [guarded, Bool.and_eq_true] at hguarded
      rw [read, read, ← ihfirst bound hguarded.1 cursor trace hweight]
      cases hread : first.read left gap cursor trace with
      | mk result after =>
          cases result with
          | none => rfl
          | some found =>
              have hstop := (read_moves hgap hmoves first _ _ _ _ hread).length_le
              have hskip := (hgap found.stop).length_le
              -- Behind a character the rank may start anew, as the text has become shorter.
              have hnext := ihnext _ hguarded.2 (gap found.stop) after ?_
              · simp only [hnext]
              · cases heats : first.eats known with
                | false =>
                    have hmul := Nat.mul_le_mul_right height
                      (show (gap found.stop).rest.length ≤ cursor.rest.length by omega)
                    simp only [Bool.false_eq_true, if_false]
                    omega
                | true =>
                    rw [heats, Bool.toNat_true] at hstop
                    have hmul := Nat.mul_le_mul_right height
                      (show (gap found.stop).rest.length + 1 ≤ cursor.rest.length by omega)
                    rw [Nat.succ_mul] at hmul
                    simp only [if_true]
                    omega
  | choice first other ihfirst ihother =>
      rw [guarded, Bool.and_eq_true] at hguarded
      rw [read, read, ← ihfirst bound hguarded.1 cursor trace hweight]
      cases first.read left gap cursor trace with
      | mk result after =>
          cases result with
          | none => exact ihother bound hguarded.2 cursor after hweight
          | some found => rfl
  | star body ih =>
      rw [guarded, Bool.and_eq_true] at hguarded
      have hbody : Moves 0 (body.read left gap) := fun _ _ _ _ hread =>
        (read_moves hgap hmoves body _ _ _ _ hread).weaken (Nat.zero_le _)
      rw [read, read, ← ih bound hguarded.2 cursor trace hweight]
      cases hread : body.read left gap cursor trace with
      | mk result after =>
          cases result with
          | none => rfl
          | some found =>
              have hstop := (hbody _ _ _ _ hread).length_le
              have hagree : ∀ later trace, later.rest.length ≤ cursor.rest.length →
                  body.read left gap later trace = body.read right gap later trace := by
                intro later trace hle
                have hmul := Nat.mul_le_mul_right height hle
                exact ih bound hguarded.2 later trace (by omega)
              simp only [repeatRead_congr hgap hbody hagree _ found.stop after (by omega)]
  | ahead body ih | notAhead body ih =>
      rw [guarded] at hguarded
      rw [read, read, ih bound hguarded cursor trace hweight]
  | enter rule =>
      rw [guarded, decide_eq_true_eq] at hguarded
      exact hagree rule cursor trace (by omega)

end PlZero.Peg

namespace PlZero

open Peg

variable {R : Type}

/-- What shows that readings by a grammar end: which rules take a character, and a rank of the
rules that goes down along calls at the same place. -/
structure Grammar.Ranked (grammar : Grammar R) where
  eats : R → Bool
  rank : R → Nat
  eats_body : ∀ rule, eats rule → (grammar.body rule).eats eats
  rank_lt : ∀ rule, rank rule < grammar.rules.length
  guarded_body : ∀ rule,
    (grammar.body rule).guarded eats rank grammar.rules.length (rank rule)

namespace Grammar

/-- Reads on by a rule, as deep as it takes. -/
def run (grammar : Grammar R) (inToken : Bool) (rule : R) : Reader R := fun cursor trace =>
  grammar.call (grammar.depth cursor.rest.length) inToken rule cursor trace

namespace Ranked

variable {grammar : Grammar R} (ranked : grammar.Ranked)

include ranked

theorem call_moves (depth : Nat) (inToken : Bool) (rule : R) :
    Moves (ranked.eats rule).toNat (grammar.call depth inToken rule) :=
  Grammar.call_moves ranked.eats_body depth inToken rule

/-- Two depths above the weight of a call give the same reading. -/
theorem call_eq_call {first second : Nat} {inToken : Bool} {rule : R} {cursor : Cursor}
    (trace : Trace R)
    (hfirst : cursor.rest.length * grammar.rules.length + ranked.rank rule < first)
    (hsecond : cursor.rest.length * grammar.rules.length + ranked.rank rule < second) :
    grammar.call first inToken rule cursor trace =
      grammar.call second inToken rule cursor trace := by
  -- Every call inside weighs less than this one, and has one depth less to it.
  induction first generalizing second inToken rule cursor trace with
  | zero => omega
  | succ first ih =>
      obtain _ | second := second
      · omega
      have hbody : ∀ inToken, (grammar.body rule).read (grammar.call first inToken)
          (grammar.gap inToken) cursor trace =
          (grammar.body rule).read (grammar.call second inToken) (grammar.gap inToken)
            cursor trace := by
        intro inToken
        refine read_congr (grammar.gap_moves inToken)
          (fun rule => ranked.call_moves first inToken rule) ?_ _ _ (ranked.guarded_body rule)
          cursor trace (Nat.le_refl _)
        intro rule' cursor' trace' hless
        exact ih trace' (by omega) (by omega)
      cases inToken with
      | true => exact hbody true
      | false => simp only [call, hbody]

/-- The depth given to a text is above the weight of every call that starts there. -/
theorem weight_lt_depth (length : Nat) (rule : R) :
    length * grammar.rules.length + ranked.rank rule < grammar.depth length := by
  have hrank := ranked.rank_lt rule
  rw [Grammar.depth, Nat.succ_mul]
  omega

theorem call_eq_run {depth : Nat} {inToken : Bool} {rule : R} {cursor : Cursor} (trace : Trace R)
    (hdepth : cursor.rest.length * grammar.rules.length + ranked.rank rule < depth) :
    grammar.call depth inToken rule cursor trace = grammar.run inToken rule cursor trace :=
  ranked.call_eq_call trace hdepth (ranked.weight_lt_depth _ _)

theorem run_moves (inToken : Bool) (rule : R) :
    Moves (ranked.eats rule).toNat (grammar.run inToken rule) :=
  fun cursor trace found after hread =>
    ranked.call_moves _ inToken rule cursor trace found after hread

theorem read_call_eq_read_run (rule : R) (inToken : Bool) (cursor : Cursor) (trace : Trace R)
    {depth : Nat} (hdepth : cursor.rest.length * grammar.rules.length + ranked.rank rule ≤ depth) :
    (grammar.body rule).read (grammar.call depth inToken) (grammar.gap inToken) cursor trace =
      (grammar.body rule).read (grammar.run inToken) (grammar.gap inToken) cursor trace := by
  refine read_congr (grammar.gap_moves inToken)
    (fun rule => ranked.call_moves depth inToken rule) ?_ _ _ (ranked.guarded_body rule)
    cursor trace (Nat.le_refl _)
  intro rule' cursor' trace' hless
  exact ranked.call_eq_run trace' (by omega)

/-- A call from a place is one deeper than what its body needs there. -/
theorem run_eq_call_succ (inToken : Bool) (rule : R) (cursor : Cursor) (trace : Trace R) :
    ∃ depth, cursor.rest.length * grammar.rules.length + ranked.rank rule ≤ depth ∧
      grammar.run inToken rule cursor trace =
        grammar.call (depth + 1) inToken rule cursor trace := by
  have hdepth := ranked.weight_lt_depth cursor.rest.length rule
  refine ⟨grammar.depth cursor.rest.length - 1, by omega, ?_⟩
  rw [Nat.sub_add_cancel (by omega)]
  rfl

/-- Inside a token a rule reads what its body reads. -/
theorem run_true (rule : R) (cursor : Cursor) (trace : Trace R) :
    grammar.run true rule cursor trace =
      (grammar.body rule).read (grammar.run true) (grammar.gap true) cursor trace := by
  obtain ⟨depth, hdepth, hrun⟩ := ranked.run_eq_call_succ true rule cursor trace
  rw [hrun, ← ranked.read_call_eq_read_run rule true cursor trace hdepth]
  rfl

/-- Outside tokens a rule leaves a node around what its body reads, or a note of its failure. -/
theorem run_false (rule : R) (cursor : Cursor) (trace : Trace R) :
    grammar.run false rule cursor trace =
      match (grammar.body rule).read (grammar.run (grammar.isToken rule))
          (grammar.gap (grammar.isToken rule)) cursor trace with
      | (some found, after) =>
          (some ⟨[⟨rule, cursor.offset, cursor.rest.take (found.stop.offset - cursor.offset),
            found.nodes⟩], found.stop⟩, after)
      | (none, after) => (none, after.record rule cursor.offset (trace.count cursor.offset)) := by
  obtain ⟨depth, hdepth, hrun⟩ := ranked.run_eq_call_succ false rule cursor trace
  rw [hrun, ← ranked.read_call_eq_read_run rule _ cursor trace hdepth]
  rfl

end Ranked

end Grammar

end PlZero
