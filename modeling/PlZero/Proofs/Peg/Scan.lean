import PlZero.Proofs.Peg.Depth

/-! # What is found, regardless of failures

The notes of failures never decide what a reading finds. Here readings are stated without them,
and without a depth: what a rule finds is what its body finds, with a node around it outside
tokens. A repetition becomes a relation that follows its items.
-/

namespace PlZero.Peg

variable {R : Type}

/-- A way to read on from a place, if failures are not noted. -/
abbrev Scanner (R : Type) := Cursor → Option (Found R)

/-- The nodes of two readings, one behind the other. -/
def Found.append (first next : Found R) : Found R := ⟨first.nodes ++ next.nodes, next.stop⟩

@[simp]
theorem Found.nodes_append (first next : Found R) :
    (first.append next).nodes = first.nodes ++ next.nodes := rfl

/-- Further items of a repetition, at most `bound` of them. -/
def repeatScan (gap : Cursor → Cursor) (item : Scanner R) : Nat → Cursor → Found R
  | 0, cursor => ⟨[], cursor⟩
  | bound + 1, cursor =>
      match item (gap cursor) with
      | none => ⟨[], cursor⟩
      | some found => found.append (repeatScan gap item bound found.stop)

/-- What a parsing expression finds. -/
def scan (call : R → Scanner R) (gap : Cursor → Cursor) : Peg R → Scanner R
  | .empty, cursor => some ⟨[], cursor⟩
  | .word text, cursor =>
      if text.isPrefixOf cursor.rest then some ⟨[], cursor.advance text.length⟩ else none
  | .char accepts, cursor =>
      match cursor.rest with
      | [] => none
      | head :: _ => if accepts head then some ⟨[], cursor.advance 1⟩ else none
  | .seq first next, cursor =>
      (first.scan call gap cursor).bind fun found =>
        (next.scan call gap (gap found.stop)).map found.append
  | .choice first other, cursor => (first.scan call gap cursor).or (other.scan call gap cursor)
  | .star body, cursor =>
      match body.scan call gap cursor with
      | none => some ⟨[], cursor⟩
      | some found => some <|
          found.append (repeatScan gap (body.scan call gap) (found.stop.rest.length + 1) found.stop)
  | .ahead body, cursor => (body.scan call gap cursor).map fun _ => ⟨[], cursor⟩
  | .notAhead body, cursor =>
      if (body.scan call gap cursor).isSome then none else some ⟨[], cursor⟩
  | .enter rule, cursor => call rule cursor

theorem repeatRead_fst {gap : Cursor → Cursor} {item : Reader R} {scanner : Scanner R}
    (hitem : ∀ cursor trace, (item cursor trace).1 = scanner cursor) (bound : Nat)
    (cursor : Cursor) (trace : Trace R) :
    (repeatRead gap item bound cursor trace).1 = repeatScan gap scanner bound cursor := by
  induction bound generalizing cursor trace with
  | zero => rfl
  | succ bound ih =>
      rw [repeatRead, repeatScan, ← hitem (gap cursor) trace]
      rcases item (gap cursor) trace with ⟨_ | found, after⟩
      · rfl
      · simp only [← ih found.stop after]
        rfl

/-- A reading finds what the scan finds, whatever has been noted before. -/
theorem read_fst {call : R → Reader R} {scanner : R → Scanner R} {gap : Cursor → Cursor}
    (hcall : ∀ rule cursor trace, (call rule cursor trace).1 = scanner rule cursor) (peg : Peg R)
    (cursor : Cursor) (trace : Trace R) :
    (peg.read call gap cursor trace).1 = peg.scan scanner gap cursor := by
  induction peg generalizing cursor trace with
  | empty => rfl
  | word text =>
      by_cases hprefix : text.isPrefixOf cursor.rest <;> simp [read, scan, hprefix]
  | char accepts =>
      rw [read, scan]
      cases cursor.rest with
      | nil => rfl
      | cons head rest => by_cases haccepts : accepts head <;> simp [haccepts]
  | seq first next ihfirst ihnext =>
      rw [read, scan, ← ihfirst cursor trace]
      rcases first.read call gap cursor trace with ⟨_ | found, after⟩
      · rfl
      · simp only [Option.bind_some, ← ihnext (gap found.stop) after]
        rcases next.read call gap (gap found.stop) after with ⟨_ | others, later⟩ <;> rfl
  | choice first other ihfirst ihother =>
      rw [read, scan, ← ihfirst cursor trace]
      rcases first.read call gap cursor trace with ⟨_ | found, after⟩
      · exact ihother cursor after
      · rfl
  | star body ih =>
      rw [read, scan, ← ih cursor trace]
      rcases body.read call gap cursor trace with ⟨_ | found, after⟩
      · rfl
      · simp only [← @repeatRead_fst _ gap _ _ ih _ found.stop after]
        rfl
  | ahead body ih | notAhead body ih =>
      rw [read, scan, ← ih cursor trace]
      rcases body.read call gap cursor trace with ⟨_ | found, after⟩ <;> rfl
  | enter rule => exact hcall rule cursor trace

/-! ## Repetitions -/

/-- The items of a repetition, each behind a gap, up to a place where there is none. -/
inductive Repeats (gap : Cursor → Cursor) (item : Scanner R) : Cursor → Found R → Prop where
  | stop {cursor : Cursor} (hnone : item (gap cursor) = none) : Repeats gap item cursor ⟨[], cursor⟩
  | more {cursor : Cursor} {found others : Found R} (hfound : item (gap cursor) = some found)
      (hothers : Repeats gap item found.stop others) :
      Repeats gap item cursor (found.append others)

namespace Repeats

variable {gap : Cursor → Cursor} {item : Scanner R} {cursor : Cursor} {found other : Found R}

theorem unique (hfound : Repeats gap item cursor found) (hother : Repeats gap item cursor other) :
    found = other := by
  induction hfound generalizing other with
  | stop hnone =>
      cases hother with
      | stop => rfl
      | more hsome => cases hnone.symm.trans hsome
  | more hsome _ ih =>
      cases hother with
      | stop hnone => cases hnone.symm.trans hsome
      | more hsome' hothers =>
          cases hsome.symm.trans hsome'
          rw [ih hothers]

end Repeats

/-- A scanner that takes a character whenever it finds something. -/
def Eager (item : Scanner R) : Prop :=
  ∀ cursor found, item cursor = some found → cursor.Ahead 1 found.stop

theorem repeats_repeatScan {gap : Cursor → Cursor} {item : Scanner R} (hgap : GapMoves gap)
    (hitem : Eager item) {bound : Nat} {cursor : Cursor} (hbound : cursor.rest.length < bound) :
    Repeats gap item cursor (repeatScan gap item bound cursor) := by
  induction bound generalizing cursor with
  | zero => omega
  | succ bound ih =>
      rw [repeatScan]
      split
      next hnone => exact .stop hnone
      next found hfound =>
        have hskip := (hgap cursor).length_le
        have hstop := (hitem _ _ hfound).length_le
        exact .more hfound (ih (by omega))

end PlZero.Peg

namespace PlZero.Grammar

open Peg

variable {R : Type} {grammar : Grammar R}

theorem call_fst_eq (depth : Nat) (inToken : Bool) (rule : R) (cursor : Cursor)
    (trace other : Trace R) :
    (grammar.call depth inToken rule cursor trace).1 =
      (grammar.call depth inToken rule cursor other).1 := by
  induction depth generalizing inToken rule cursor trace other with
  | zero => cases inToken <;> rfl
  | succ depth ih =>
      -- The body sees what has been noted only through its calls.
      have hbody : ∀ inToken, ((grammar.body rule).read (grammar.call depth inToken)
          (grammar.gap inToken) cursor trace).1 = ((grammar.body rule).read
          (grammar.call depth inToken) (grammar.gap inToken) cursor other).1 := by
        intro inToken
        have hcall := fun rule cursor trace => ih inToken rule cursor trace .start
        rw [read_fst hcall, read_fst hcall]
      cases inToken with
      | true => exact hbody true
      | false =>
          have hfst := hbody (grammar.isToken rule)
          rw [call, call]
          revert hfst
          rcases Peg.read _ _ _ cursor trace with ⟨_ | found, after⟩ <;>
            rcases Peg.read _ _ _ cursor other with ⟨_ | found', after'⟩ <;>
            intro hfst <;> cases hfst <;> rfl

/-- What a rule finds at a place. -/
def find (grammar : Grammar R) (inToken : Bool) (rule : R) : Scanner R := fun cursor =>
  (grammar.run inToken rule cursor .start).1

theorem run_fst (inToken : Bool) (rule : R) (cursor : Cursor) (trace : Trace R) :
    (grammar.run inToken rule cursor trace).1 = grammar.find inToken rule cursor :=
  call_fst_eq _ _ _ _ _ _

/-- What a parsing expression over the rules of a grammar finds at a place. -/
def scan (grammar : Grammar R) (inToken : Bool) (peg : Peg R) : Scanner R :=
  peg.scan (grammar.find inToken) (grammar.gap inToken)

section Scan

variable (inToken : Bool) (cursor : Cursor)

theorem scan_empty : grammar.scan inToken .empty cursor = some ⟨[], cursor⟩ := rfl

theorem scan_word (text : List Char) :
    grammar.scan inToken (.word text) cursor =
      if text.isPrefixOf cursor.rest then some ⟨[], cursor.advance text.length⟩ else none := rfl

theorem scan_char (accepts : Char → Bool) :
    grammar.scan inToken (.char accepts) cursor =
      if cursor.rest.head?.any accepts then some ⟨[], cursor.advance 1⟩ else none := by
  rcases cursor with ⟨offset, _ | ⟨head, rest⟩⟩ <;> rfl

theorem scan_seq (first next : Peg R) :
    grammar.scan inToken (.seq first next) cursor =
      (grammar.scan inToken first cursor).bind fun found =>
        (grammar.scan inToken next (grammar.gap inToken found.stop)).map found.append := rfl

theorem scan_choice (first other : Peg R) :
    grammar.scan inToken (.choice first other) cursor =
      (grammar.scan inToken first cursor).or (grammar.scan inToken other cursor) := rfl

theorem scan_ahead (body : Peg R) :
    grammar.scan inToken (.ahead body) cursor =
      (grammar.scan inToken body cursor).map fun _ => ⟨[], cursor⟩ := rfl

theorem scan_notAhead (body : Peg R) :
    grammar.scan inToken (.notAhead body) cursor =
      if (grammar.scan inToken body cursor).isSome then none else some ⟨[], cursor⟩ := rfl

theorem scan_enter (rule : R) :
    grammar.scan inToken (.enter rule) cursor = grammar.find inToken rule cursor := rfl

end Scan

theorem read_run_fst (inToken : Bool) (peg : Peg R) (cursor : Cursor) (trace : Trace R) :
    (peg.read (grammar.run inToken) (grammar.gap inToken) cursor trace).1 =
      grammar.scan inToken peg cursor :=
  read_fst (run_fst inToken) peg cursor trace

/-- The node that a rule leaves around what was found inside. -/
def enclose (rule : R) (cursor : Cursor) (found : Found R) : Found R :=
  ⟨[⟨rule, cursor.offset, cursor.rest.take (found.stop.offset - cursor.offset), found.nodes⟩],
    found.stop⟩

namespace Ranked

variable (ranked : grammar.Ranked)

include ranked

theorem find_true (rule : R) (cursor : Cursor) :
    grammar.find true rule cursor = grammar.scan true (grammar.body rule) cursor := by
  change (grammar.run true rule cursor .start).1 = _
  rw [ranked.run_true, read_run_fst]

theorem find_false (rule : R) (cursor : Cursor) :
    grammar.find false rule cursor =
      (grammar.scan (grammar.isToken rule) (grammar.body rule) cursor).map
        (enclose rule cursor) := by
  change (grammar.run false rule cursor .start).1 = _
  rw [ranked.run_false, ← read_run_fst _ _ _ .start]
  rcases Peg.read _ _ _ cursor _ with ⟨_ | found, after⟩ <;> rfl

theorem scan_moves {inToken : Bool} {peg : Peg R} {cursor : Cursor} {found : Found R}
    (hfound : grammar.scan inToken peg cursor = some found) :
    cursor.Ahead (peg.eats ranked.eats).toNat found.stop := by
  refine read_moves (grammar.gap_moves inToken) (ranked.run_moves inToken) peg cursor .start found
    _ (Prod.ext ?_ rfl)
  exact (read_run_fst inToken peg cursor .start).trans hfound

end Ranked

/-- Where no gap is left to skip, a repetition finds its items. -/
theorem Ranked.scan_star_iff (ranked : grammar.Ranked) {inToken : Bool} {body : Peg R}
    {cursor : Cursor} {found : Found R} (heats : body.eats ranked.eats)
    (hcursor : grammar.gap inToken cursor = cursor) :
    grammar.scan inToken (.star body) cursor = some found ↔
      Repeats (grammar.gap inToken) (grammar.scan inToken body) cursor found := by
  -- A repetition has at most as many items as there are characters, so its bound is no limit.
  have heager : Eager (grammar.scan inToken body) := by
    intro cursor found hfound
    have hmoves := ranked.scan_moves hfound
    rwa [heats] at hmoves
  have hrepeats : ∃ found, grammar.scan inToken (.star body) cursor = some found ∧
      Repeats (grammar.gap inToken) (grammar.scan inToken body) cursor found := by
    rw [scan, Peg.scan]
    split
    next hnone => exact ⟨_, rfl, .stop (hcursor.symm ▸ hnone)⟩
    next first hfirst =>
      exact ⟨_, rfl, .more (hcursor.symm ▸ hfirst)
        (repeats_repeatScan (grammar.gap_moves inToken) heager (Nat.lt_succ_self _))⟩
  obtain ⟨found', hscan, hfound'⟩ := hrepeats
  rw [hscan, Option.some_inj]
  constructor
  · rintro rfl
    exact hfound'
  · exact hfound'.unique

/-- A text is read by a rule if the rule finds its node at the start. -/
theorem match?_eq_ok_iff (ranked : grammar.Ranked) {rule : R} {text : List Char} {node : Node R} :
    grammar.match? rule text = .ok node ↔
      ∃ stop, grammar.find false rule (.start text) = some ⟨[node], stop⟩ := by
  have hrun : grammar.call (grammar.depth text.length) false rule (.start text) .start =
      grammar.run false rule (.start text) .start := rfl
  have hfst : grammar.find false rule (.start text) =
      (grammar.run false rule (.start text) .start).1 := rfl
  have henclose := ranked.find_false rule (.start text)
  rw [match?, hrun]
  rw [hfst] at henclose ⊢
  revert henclose
  rcases grammar.run false rule (.start text) .start with ⟨_ | found, after⟩
  · simp
  · intro henclose
    obtain ⟨inner, -, rfl⟩ := Option.map_eq_some_iff.mp henclose.symm
    simp [enclose]

end PlZero.Grammar
