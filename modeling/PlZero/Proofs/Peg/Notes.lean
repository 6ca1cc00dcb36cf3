import PlZero.Proofs.Peg.Scan

/-! # What is noted of failures

Only rules outside tokens make notes, each at the place where it fails. So a property of the notes
that one more note keeps is kept by every reading, and a rule that fails leaves notes at its own
place or further on.
-/

namespace PlZero.Peg

variable {R : Type}

namespace Trace

variable {trace : Trace R} {rule : R} {offset before : Nat}

/-- There are no notes only as long as nothing has failed. -/
def Proper (trace : Trace R) : Prop := trace.tried = [] → trace.offset = 0

/-- Something is noted at a place or further on. -/
def Reached (trace : Trace R) (offset : Nat) : Prop := offset ≤ trace.offset ∧ trace.tried ≠ []

/-- Whatever is noted may be noted there. -/
def Among (trace : Trace R) (allowed : Nat → R → Prop) : Prop :=
  ∀ rule ∈ trace.tried, allowed trace.offset rule

theorem proper_start : (start : Trace R).Proper := fun _ => rfl

theorem among_start (allowed : Nat → R → Prop) : (start : Trace R).Among allowed := nofun

theorem record_reached (hproper : trace.Proper) :
    (trace.record rule offset before).Reached offset := by
  unfold record
  split
  next hcount =>
    unfold count at hcount
    split at hcount
    next hsame =>
      refine ⟨Nat.le_of_eq hsame, fun hnil => ?_⟩
      simp [hnil] at hcount
    next => cases hcount
  next =>
    split
    next => exact ⟨Nat.le_refl _, by simp⟩
    next hnotLt =>
      split
      next hsame => exact ⟨Nat.le_refl _, by simp⟩
      next hne =>
        refine ⟨Nat.le_of_not_lt hnotLt, fun hnil => ?_⟩
        have hzero := hproper hnil
        omega

theorem Proper.record (hproper : trace.Proper) : (trace.record rule offset before).Proper :=
  fun hnil => absurd hnil (record_reached hproper).2

/-- Failures before the furthest place are not noted. -/
theorem record_of_lt (hlt : offset < trace.offset) : trace.record rule offset before = trace := by
  have hne : offset ≠ trace.offset := Nat.ne_of_lt hlt
  simp [record, count, hne, Nat.lt_asymm hlt]

theorem Among.record {allowed : Nat → R → Prop} (htrace : trace.Among allowed)
    (hrule : allowed offset rule) : (trace.record rule offset before).Among allowed := by
  unfold Trace.record
  split
  next => exact htrace
  next =>
    split
    next => simpa [Among] using hrule
    next =>
      split
      next hsame =>
        intro other hother
        rcases List.mem_append.mp hother with hother | hother
        · exact hsame ▸ htrace other (List.mem_of_mem_take hother)
        · exact List.mem_singleton.mp hother ▸ hrule
      next => exact htrace

end Trace

/-- A reader keeps a property of what is noted. -/
def Keeps (holds : Trace R → Prop) (reader : Reader R) : Prop :=
  ∀ cursor trace, holds trace → holds (reader cursor trace).2

section Keeps

variable {holds : Trace R → Prop} {gap : Cursor → Cursor}

theorem Keeps.of_eq {reader : Reader R} (hkeeps : Keeps holds reader) {cursor : Cursor}
    {trace after : Trace R} {result : Option (Found R)}
    (hread : reader cursor trace = (result, after)) (htrace : holds trace) : holds after := by
  have hafter := hkeeps cursor trace htrace
  rwa [hread] at hafter

theorem repeatRead_keeps {item : Reader R} (hitem : Keeps holds item) (bound : Nat)
    (cursor : Cursor) (trace : Trace R) (htrace : holds trace) :
    holds (repeatRead gap item bound cursor trace).2 := by
  induction bound generalizing cursor trace with
  | zero => exact htrace
  | succ bound ih =>
      rw [repeatRead]
      split
      next after hread => exact hitem.of_eq hread htrace
      next found after hread => exact ih found.stop after (hitem.of_eq hread htrace)

theorem read_keeps {call : R → Reader R} (hcall : ∀ rule, Keeps holds (call rule)) (peg : Peg R) :
    Keeps holds (peg.read call gap) := by
  induction peg with
  | empty => exact fun cursor trace => id
  | word text =>
      intro cursor trace htrace
      rw [read]
      split <;> exact htrace
  | char accepts =>
      intro cursor trace htrace
      rw [read]
      split
      next => exact htrace
      next => split <;> exact htrace
  | seq first next ihfirst ihnext =>
      intro cursor trace htrace
      rw [read]
      split
      next after hfirst => exact ihfirst.of_eq hfirst htrace
      next found after hfirst =>
        have hafter := ihfirst.of_eq hfirst htrace
        split
        next later hnext => exact ihnext.of_eq hnext hafter
        next others later hnext => exact ihnext.of_eq hnext hafter
  | choice first other ihfirst ihother =>
      intro cursor trace htrace
      rw [read]
      split
      next after hfirst => exact ihother cursor after (ihfirst.of_eq hfirst htrace)
      next found after hfirst => exact ihfirst.of_eq hfirst htrace
  | star body ih =>
      intro cursor trace htrace
      rw [read]
      split
      next after hread => exact ih.of_eq hread htrace
      next found after hread => exact repeatRead_keeps ih _ found.stop after (ih.of_eq hread htrace)
  | ahead body ih =>
      intro cursor trace htrace
      rw [read]
      split
      next after hread => exact ih.of_eq hread htrace
      next found after hread => exact ih.of_eq hread htrace
  | notAhead body ih =>
      intro cursor trace htrace
      rw [read]
      split <;> exact htrace
  | enter rule => exact hcall rule

end Keeps

end PlZero.Peg

namespace PlZero.Grammar

open Peg

variable {R : Type} (grammar : Grammar R)

/-- Inside a token nothing is noted. -/
theorem call_true_keeps (holds : Trace R → Prop) (depth : Nat) (rule : R) :
    Keeps holds (grammar.call depth true rule) := by
  induction depth generalizing rule with
  | zero => exact fun cursor trace => id
  | succ depth ih => exact read_keeps ih (grammar.body rule)

/-- A property that one more note keeps is kept by every call. -/
theorem call_keeps {holds : Trace R → Prop}
    (hrecord : ∀ trace rule offset before, holds trace → holds (trace.record rule offset before))
    (depth : Nat) (inToken : Bool) (rule : R) : Keeps holds (grammar.call depth inToken rule) := by
  induction depth generalizing inToken rule with
  | zero => cases inToken <;> exact fun cursor trace => id
  | succ depth ih =>
      cases inToken with
      | true => exact read_keeps (ih true) (grammar.body rule)
      | false =>
          intro cursor trace htrace
          have hbody := @read_keeps _ _ (grammar.gap (grammar.isToken rule)) _
            (ih (grammar.isToken rule)) (grammar.body rule)
          simp only [call]
          split
          next found after hread => exact hbody.of_eq hread htrace
          next after hread => exact hrecord _ _ _ _ (hbody.of_eq hread htrace)

theorem run_keeps {holds : Trace R → Prop}
    (hrecord : ∀ trace rule offset before, holds trace → holds (trace.record rule offset before))
    (inToken : Bool) (rule : R) : Keeps holds (grammar.run inToken rule) :=
  fun cursor => grammar.call_keeps hrecord _ inToken rule cursor

theorem read_run_proper (inToken : Bool) (gap : Cursor → Cursor) (peg : Peg R) :
    Keeps Trace.Proper (peg.read (grammar.run inToken) gap) :=
  read_keeps (fun rule => grammar.run_keeps (fun _ _ _ _ hproper => hproper.record) inToken rule)
    peg

/-- A rule that fails leaves notes where it was called or further on. -/
theorem Ranked.reached_of_run {grammar : Grammar R} (ranked : grammar.Ranked) {rule : R}
    {cursor : Cursor} {trace after : Trace R} (hproper : trace.Proper)
    (hread : grammar.run false rule cursor trace = (none, after)) :
    after.Reached cursor.offset := by
  rw [ranked.run_false] at hread
  split at hread
  next => cases hread
  next inner hbody =>
    cases hread
    exact Trace.record_reached ((grammar.read_run_proper _ _ _).of_eq hbody hproper)

/-- A text is rejected with the notes that the failing rule leaves. -/
theorem Ranked.match?_eq_error_iff {grammar : Grammar R} (ranked : grammar.Ranked) {rule : R}
    {text : List Char} {trace : Trace R} :
    grammar.match? rule text = .error trace ↔
      grammar.run false rule (.start text) .start = (none, trace) := by
  have hrun : grammar.call (grammar.depth text.length) false rule (.start text) .start =
      grammar.run false rule (.start text) .start := rfl
  rw [match?, hrun, ranked.run_false]
  rcases Peg.read _ _ _ (Cursor.start text) _ with ⟨_ | found, after⟩ <;> simp

end PlZero.Grammar
