import PlZero.Proofs.Grammar.Twins
import PlZero.Proofs.Peg.Calls
import PlZero.Proofs.Peg.Notes

/-! # Failures that are noted

Notes are made by rules alone, and a word or a sign in the middle of a rule fails without one. Two
things can be told from the form of a parsing expression: whether it notes its own failure, and
whether it has noted something where it stops when it succeeds, since it ends with a repetition
that is given up there.
-/

namespace PlZero

open Peg PlZero.Language

/-- The rules whose bodies end with a repetition that is given up at a noted place. -/
def Rule.closes : Rule → Bool
  | .expr | .chain => true
  | _ => false

namespace Peg

mutual

/-- Whether a reading that fails leaves a note where it started or further on. -/
def tells : Peg Rule → Bool
  | .empty | .star _ | .enter _ => true
  | .seq first next => first.tells && (next.tells || first.closes)
  | .choice first other => first.tells || other.tells
  | .word _ | .char _ | .ahead _ | .notAhead _ => false

/-- Whether a reading that succeeds leaves a note where it stops. -/
def closes : Peg Rule → Bool
  | .seq _ next => next.closes
  | .choice first other => first.closes && other.closes
  | .star body => body.tells && body.eats Language.eats
  | .enter rule => rule.closes
  | .empty | .word _ | .char _ | .ahead _ | .notAhead _ => false

end

end Peg

theorem Rule.closes_body {rule : Rule} (hrule : rule.closes) : (body rule).closes := by
  cases rule with
  | expr | chain => decide
  | _ => cases hrule

/-- A note is never given up for one before it. -/
theorem Peg.Trace.le_offset_record {trace : Trace Rule} {rule : Rule} {offset before : Nat} :
    trace.offset ≤ (trace.record rule offset before).offset ∧
      offset ≤ (trace.record rule offset before).offset := by
  unfold Trace.record Trace.count
  grind

/-- What a reading has noted in the end, if it started behind a place and failed, or if it has
passed the place and succeeded. -/
structure Announces (place : Nat) (tells closes : Bool) (cursor : Cursor) (outcome : Outcome Rule) :
    Prop where
  tells : tells → place ≤ cursor.offset → outcome.1 = none → place ≤ outcome.2.offset
  closes : closes → ∀ found, outcome.1 = some found → Passed place found.stop →
    place ≤ outcome.2.offset

/-- What is known of a call outside tokens: it does not go back, it does not forget what is noted
behind the place, and it notes that it fails. -/
structure Heeds (place : Nat) (rule : Rule) (cursor : Cursor) (trace : Trace Rule)
    (outcome : Outcome Rule) : Prop where
  moves : ∀ found later, outcome = (some found, later) →
    cursor.Ahead (Language.eats rule).toNat found.stop
  keeps : place ≤ trace.offset → place ≤ outcome.2.offset
  announces : Settled cursor → Announces place true rule.closes cursor outcome

section Read

variable {place : Nat}

/-- A repetition ends with an attempt that fails. -/
theorem le_offset_of_readsItems {item : Reader Rule} {cursor : Cursor} {trace later : Trace Rule}
    {found : Found Rule} (hitems : ReadsItems (language.gap false) item cursor trace found later)
    (hitem : ∀ cursor trace, Settled cursor → place ≤ cursor.offset →
      (item cursor trace).1 = none → place ≤ (item cursor trace).2.offset)
    (hpassed : Passed place found.stop) : place ≤ later.offset := by
  induction hitems with
  | @stop cursor trace _ hnone =>
      have hfails := hitem _ trace (settled_gap cursor) hpassed
      rw [hnone] at hfails
      exact hfails rfl
  | more _ _ ih => exact ih hpassed

variable {call : Rule → Reader Rule}
  (hcall : ∀ rule cursor trace, Heeds place rule cursor trace (call rule cursor trace))

include hcall

theorem moves_read (peg : Peg Rule) :
    Moves (peg.eats Language.eats).toNat (peg.read call (language.gap false)) :=
  read_moves (language.gap_moves false) (fun rule cursor trace => (hcall rule cursor trace).moves)
    peg

theorem keeps_read (peg : Peg Rule) :
    Keeps (place ≤ ·.offset) (peg.read call (language.gap false)) :=
  read_keeps (fun rule cursor trace => (hcall rule cursor trace).keeps) peg

theorem moves_read_of_eats {peg : Peg Rule} (heats : peg.eats Language.eats) :
    Moves 1 (peg.read call (language.gap false)) := by
  have hmoves := moves_read hcall peg
  rwa [heats] at hmoves

section Items

variable {peg : Peg Rule} {cursor : Cursor} {trace later : Trace Rule} {found : Found Rule}
  (hitems : ReadsItems (language.gap false) (peg.read call (language.gap false)) cursor trace found
    later)

include hitems

theorem keeps_items (hfar : place ≤ trace.offset) : place ≤ later.offset := by
  induction hitems with
  | @stop cursor trace _ hnone =>
      have hkeeps := keeps_read hcall peg (language.gap false cursor) trace hfar
      rwa [hnone] at hkeeps
  | @more cursor trace _ _ _ _ hfound _ ih =>
      have hkeeps := keeps_read hcall peg (language.gap false cursor) trace hfar
      rw [hfound] at hkeeps
      exact ih hkeeps

theorem ahead_items : cursor.Ahead 0 found.stop := by
  induction hitems with
  | stop => exact .refl _
  | @more cursor _ _ _ _ _ hfound _ ih =>
      have hitem := (moves_read hcall peg _ _ _ _ hfound).weaken (Nat.zero_le _)
      exact ((language.gap_moves false cursor).trans hitem).trans ih

end Items

omit hcall in
/-- Where the form tells nothing there is nothing to show. -/
theorem Announces.nothing {cursor : Cursor} {outcome : Outcome Rule} :
    Announces place false false cursor outcome where
  tells htells := by cases htells
  closes hcloses := by cases hcloses

section Combine

variable {first other body : Peg Rule} {cursor : Cursor} {trace : Trace Rule}

theorem announces_seq
    (hfirst : Announces place first.tells first.closes cursor
      (first.read call (language.gap false) cursor trace))
    (hother : ∀ {cursor}, Settled cursor → ∀ trace,
      Announces place other.tells other.closes cursor
        (other.read call (language.gap false) cursor trace)) :
    Announces place (Peg.seq first other).tells (Peg.seq first other).closes cursor
      ((Peg.seq first other).read call (language.gap false) cursor trace) := by
  cases hread : first.read call (language.gap false) cursor trace with
  | mk result later =>
  rw [hread] at hfirst
  cases result with
  | none =>
      rw [Peg.read, hread]
      refine ⟨fun htells => hfirst.tells (Bool.and_eq_true_iff.mp htells).1, ?_⟩
      rintro - _ ⟨⟩
  | some found =>
      have hothers := hother (settled_gap found.stop) later
      rw [read_seq_of_some hread]
      refine ⟨fun htells hle hnone => ?_, fun hcloses both hboth => ?_⟩
      · have hahead := (moves_read hcall first cursor trace found later hread).offset_le
        have hpassed : Passed place found.stop := .of_le (Nat.le_trans hle hahead)
        rcases Bool.or_eq_true_iff.mp (Bool.and_eq_true_iff.mp htells).2 with htells | hcloses
        · exact hothers.tells htells hpassed (Option.map_eq_none_iff.mp hnone)
        · exact keeps_read hcall other _ later (hfirst.closes hcloses found rfl hpassed)
      · obtain ⟨last, hlast, rfl⟩ := Option.map_eq_some_iff.mp hboth
        exact hothers.closes hcloses last hlast

theorem announces_choice
    (hfirst : Announces place first.tells first.closes cursor
      (first.read call (language.gap false) cursor trace))
    (hother : ∀ trace, Announces place other.tells other.closes cursor
      (other.read call (language.gap false) cursor trace)) :
    Announces place (Peg.choice first other).tells (Peg.choice first other).closes cursor
      ((Peg.choice first other).read call (language.gap false) cursor trace) := by
  rw [Peg.read]
  generalize first.read call (language.gap false) cursor trace = outcome at hfirst ⊢
  rcases outcome with ⟨_ | found, later⟩
  · refine ⟨fun htells hle hnone => ?_, fun hcloses => ?_⟩
    · rcases Bool.or_eq_true_iff.mp htells with htells | htells
      · exact keeps_read hcall other cursor later (hfirst.tells htells hle rfl)
      · exact (hother later).tells htells hle hnone
    · exact (hother later).closes (Bool.and_eq_true_iff.mp hcloses).2
  · refine ⟨?_, fun hcloses => hfirst.closes (Bool.and_eq_true_iff.mp hcloses).1⟩
    rintro - - ⟨⟩

theorem announces_star (hsettled : Settled cursor)
    (hbody : ∀ {cursor}, Settled cursor → ∀ trace,
      Announces place body.tells body.closes cursor
        (body.read call (language.gap false) cursor trace)) :
    Announces place (Peg.star body).tells (Peg.star body).closes cursor
      ((Peg.star body).read call (language.gap false) cursor trace) := by
  refine ⟨fun _ _ hnone => ?_, fun hcloses => ?_⟩
  · rw [Peg.read] at hnone
    split at hnone <;> cases hnone
  · obtain ⟨htells, heats⟩ := Bool.and_eq_true_iff.mp hcloses
    obtain ⟨found, later, hread, hitems⟩ := exists_read_star (language.gap_moves false)
      (moves_read_of_eats hcall heats) hsettled trace
    rw [hread]
    rintro _ ⟨⟩ hpassed
    exact le_offset_of_readsItems hitems
      (fun cursor trace hsettled => (hbody hsettled trace).tells htells) hpassed

end Combine

/-- If the calls note their failures, a reading notes what its form tells. -/
theorem announces_read (peg : Peg Rule) {cursor : Cursor} (hsettled : Settled cursor)
    (trace : Trace Rule) :
    Announces place peg.tells peg.closes cursor
      (peg.read call (language.gap false) cursor trace) := by
  induction peg generalizing cursor trace with
  | empty =>
      refine ⟨?_, fun hcloses => by cases hcloses⟩
      rintro - - ⟨⟩
  | word _ | char _ | ahead _ _ | notAhead _ _ => exact .nothing
  | seq first other ihfirst ihother =>
      exact announces_seq hcall (ihfirst hsettled trace) ihother
  | choice first other ihfirst ihother =>
      exact announces_choice hcall (ihfirst hsettled trace) (ihother hsettled)
  | star body ih => exact announces_star hcall hsettled ih
  | enter rule => exact (hcall rule cursor trace).announces hsettled

end Read

/-- What a rule makes of its body keeps what is known of the body, and its failure is noted. -/
theorem Heeds.conclude {place : Nat} {rule : Rule} {cursor : Cursor} {trace : Trace Rule}
    {outcome : Outcome Rule}
    (hmoves : ∀ found later, outcome = (some found, later) →
      cursor.Ahead (Language.eats rule).toNat found.stop)
    (hkeeps : place ≤ trace.offset → place ≤ outcome.2.offset)
    (hcloses : Settled cursor → rule.closes → ∀ found, outcome.1 = some found →
      Passed place found.stop → place ≤ outcome.2.offset) :
    Heeds place rule cursor trace (Grammar.conclude rule cursor trace outcome) := by
  rcases outcome with ⟨_ | found, later⟩
  · have hrecord := @Peg.Trace.le_offset_record later rule cursor.offset
      (trace.count cursor.offset)
    exact ⟨nofun, fun hfar => Nat.le_trans (hkeeps hfar) hrecord.1,
      fun _ => ⟨fun _ hle _ => Nat.le_trans hle hrecord.2, nofun⟩⟩
  · refine ⟨?_, hkeeps, fun hsettled => ⟨nofun, ?_⟩⟩
    · rintro _ _ ⟨⟩
      exact hmoves found later rfl
    · rintro hrule _ ⟨⟩ hpassed
      exact hcloses hsettled hrule found rfl hpassed

/-- What is read by the body of a rule is heeded if the calls in it are. -/
theorem heeds_body {place : Nat} {call : Rule → Reader Rule}
    (hcall : ∀ rule cursor trace, Heeds place rule cursor trace (call rule cursor trace))
    (rule : Rule) (cursor : Cursor) (trace : Trace Rule) :
    Heeds place rule cursor trace (Grammar.conclude rule cursor trace
      ((body rule).read call (language.gap false) cursor trace)) := by
  refine .conclude ?_ (keeps_read hcall (body rule) cursor trace) ?_
  · intro found later hread
    have hmoves := moves_read hcall (body rule) cursor trace found later hread
    cases heats : Language.eats rule with
    | false => exact hmoves.weaken (Nat.zero_le _)
    | true =>
        have hbody : (body rule).eats Language.eats := ranked.eats_body rule heats
        rwa [hbody] at hmoves
  · intro hsettled hcloses
    exact (announces_read hcall (body rule) hsettled trace).closes (Rule.closes_body hcloses)

/-- Inside a token nothing is noted, so only its own failure is. -/
theorem heeds_token {place : Nat} {rule : Rule} (htoken : isToken rule) (cursor : Cursor)
    (trace : Trace Rule) :
    Heeds place rule cursor trace (language.run false rule cursor trace) where
  moves := ranked.run_moves false rule cursor trace
  keeps := language.run_keeps (fun _ _ _ _ hfar => Nat.le_trans hfar Trace.le_offset_record.1) false
    rule cursor trace
  announces _ := by
    refine ⟨fun _ hle hnone => ?_, fun hcloses => ?_⟩
    · rw [ranked.run_eq_conclude] at hnone ⊢
      generalize Peg.read _ _ _ cursor trace = outcome at hnone ⊢
      rcases outcome with ⟨_ | found, later⟩
      · exact Nat.le_trans hle Trace.le_offset_record.2
      · cases hnone
    · cases rule with
      | expr | chain => cases htoken
      | _ => cases hcloses

end PlZero
