import PlZero.Peg.Match

/-! # Readings move forward

A reading that succeeds stops behind the place where it started, or there. Some parsing
expressions take at least one character whenever they succeed; it can be told from their form and
from the rules of which this is known.
-/

namespace PlZero.Peg

variable {R : Type}

namespace Cursor

@[simp]
theorem advance_zero (cursor : Cursor) : cursor.advance 0 = cursor := rfl

theorem advance_advance (cursor : Cursor) (first second : Nat) :
    (cursor.advance first).advance second = cursor.advance (first + second) := by
  simp only [advance, List.drop_drop, Nat.add_assoc]

/-- `stop` lies at least `least` characters behind `start`, and not behind the end of the text. -/
def Ahead (least : Nat) (start stop : Cursor) : Prop :=
  ∃ count, least ≤ count ∧ count ≤ start.rest.length ∧ stop = start.advance count

namespace Ahead

variable {first second third : Cursor} {least more : Nat}

theorem refl (cursor : Cursor) : Ahead 0 cursor cursor :=
  ⟨0, Nat.le_refl _, Nat.zero_le _, rfl⟩

theorem weaken (hahead : Ahead more first second) (hle : least ≤ more) :
    Ahead least first second := by
  obtain ⟨count, hleast, hcount, rfl⟩ := hahead
  exact ⟨count, Nat.le_trans hle hleast, hcount, rfl⟩

theorem trans (hfirst : Ahead least first second) (hsecond : Ahead more second third) :
    Ahead (least + more) first third := by
  obtain ⟨count, hleast, hcount, rfl⟩ := hfirst
  obtain ⟨further, hmore, hfurther, rfl⟩ := hsecond
  simp only [advance, List.length_drop] at hfurther
  refine ⟨count + further, by omega, by omega, advance_advance _ _ _⟩

theorem length_le (hahead : Ahead least first second) :
    second.rest.length + least ≤ first.rest.length := by
  obtain ⟨count, hleast, hcount, rfl⟩ := hahead
  simp only [advance, List.length_drop]
  omega

theorem offset_le (hahead : Ahead least first second) : first.offset ≤ second.offset := by
  obtain ⟨count, -, -, rfl⟩ := hahead
  exact Nat.le_add_right _ _

theorem skip (cursor : Cursor) (blank : Char → Bool) : Ahead 0 cursor (cursor.skip blank) :=
  ⟨_, Nat.zero_le _, (List.takeWhile_prefix blank).length_le, rfl⟩

end Ahead

end Cursor

/-- Whether a parsing expression takes a character whenever it succeeds, as far as its form and
the `known` rules tell. -/
def eats (known : R → Bool) : Peg R → Bool
  | .word text => !text.isEmpty
  | .char _ => true
  | .seq first next => first.eats known || next.eats known
  | .choice first other => first.eats known && other.eats known
  | .enter rule => known rule
  | .empty | .star _ | .ahead _ | .notAhead _ => false

/-- Whatever a reader finds stops at least `least` characters further on. -/
def Moves (least : Nat) (reader : Reader R) : Prop :=
  ∀ cursor trace found after, reader cursor trace = (some found, after) →
    cursor.Ahead least found.stop

/-- A gap never goes back. -/
def GapMoves (gap : Cursor → Cursor) : Prop := ∀ cursor : Cursor, cursor.Ahead 0 (gap cursor)

theorem repeatRead_moves {gap : Cursor → Cursor} {item : Reader R} (hgap : GapMoves gap)
    (hitem : Moves 0 item) (bound : Nat) (cursor : Cursor) (trace : Trace R) :
    cursor.Ahead 0 (repeatRead gap item bound cursor trace).1.stop := by
  induction bound generalizing cursor trace with
  | zero => exact .refl cursor
  | succ bound ih =>
      rw [repeatRead]
      split
      next => exact .refl cursor
      next found after hread =>
        exact ((hgap cursor).trans (hitem _ _ _ _ hread)).trans (ih found.stop after)

/-- What is true of the called rules is true of every parsing expression that calls them. -/
theorem read_moves {call : R → Reader R} {gap : Cursor → Cursor} {known : R → Bool}
    (hgap : GapMoves gap) (hcall : ∀ rule, Moves (known rule).toNat (call rule)) (peg : Peg R) :
    Moves (peg.eats known).toNat (peg.read call gap) := by
  induction peg with
  | empty =>
      intro cursor trace found after hread
      cases hread
      exact .refl cursor
  | word text =>
      intro cursor trace found after hread
      rw [read] at hread
      split at hread
      next hprefix =>
        cases hread
        refine ⟨text.length, ?_, ?_, rfl⟩
        · cases text <;> simp [eats]
        · exact (List.isPrefixOf_iff_prefix.mp hprefix).length_le
      next => cases hread
  | char accepts =>
      intro cursor trace found after hread
      rw [read] at hread
      split at hread
      next => cases hread
      next head rest hrest =>
        split at hread
        next =>
          cases hread
          exact ⟨1, Nat.le_refl 1, by simp [hrest], rfl⟩
        next => cases hread
  | seq first next ihfirst ihnext =>
      intro cursor trace found after hread
      rw [read] at hread
      split at hread
      next => cases hread
      next found₁ trace₁ hfirst =>
        split at hread
        next => cases hread
        next found₂ trace₂ hnext =>
          cases hread
          have hahead := ((ihfirst _ _ _ _ hfirst).trans (hgap _)).trans (ihnext _ _ _ _ hnext)
          refine hahead.weaken ?_
          rw [eats]
          cases first.eats known <;> cases next.eats known <;> decide
  | choice first other ihfirst ihother =>
      intro cursor trace found after hread
      rw [read] at hread
      split at hread
      next =>
        refine (ihother _ _ _ _ hread).weaken ?_
        rw [eats]
        cases first.eats known <;> cases other.eats known <;> decide
      next hfirst =>
        cases hread
        refine (ihfirst _ _ _ _ hfirst).weaken ?_
        rw [eats]
        cases first.eats known <;> cases other.eats known <;> decide
  | star body ih =>
      intro cursor trace found after hread
      rw [read] at hread
      split at hread
      next =>
        cases hread
        exact .refl cursor
      next found₁ trace₁ hfirst =>
        have hbody : Moves 0 (body.read call gap) :=
          fun _ _ _ _ hread => (ih _ _ _ _ hread).weaken (Nat.zero_le _)
        have hothers := repeatRead_moves hgap hbody (found₁.stop.rest.length + 1) found₁.stop trace₁
        cases hread
        exact (hbody _ _ _ _ hfirst).trans hothers
  | ahead body _ | notAhead body _ =>
      intro cursor trace found after hread
      rw [read] at hread
      split at hread <;> cases hread
      exact .refl cursor
  | enter rule => exact hcall rule

end PlZero.Peg

namespace PlZero.Grammar

open Peg

variable {R : Type}

theorem gap_moves (grammar : Grammar R) (inToken : Bool) : GapMoves (grammar.gap inToken) := by
  intro cursor
  cases inToken with
  | true => exact .refl cursor
  | false => exact .skip cursor grammar.blank

/-- If every rule known to take a character has a body that does, then its calls do. -/
theorem call_moves {grammar : Grammar R} {known : R → Bool}
    (hknown : ∀ rule, known rule → (grammar.body rule).eats known) (depth : Nat) (inToken : Bool)
    (rule : R) : Moves (known rule).toNat (grammar.call depth inToken rule) := by
  induction depth generalizing inToken rule with
  | zero =>
      intro cursor trace found after hread
      cases inToken <;> cases hread
  | succ depth ih =>
      have hle : (known rule).toNat ≤ ((grammar.body rule).eats known).toNat := by
        cases hrule : known rule with
        | false => exact Nat.zero_le _
        | true => exact (hknown rule hrule) ▸ Nat.le_refl _
      intro cursor trace found after hread
      cases inToken with
      | true =>
          have hbody := read_moves (grammar.gap_moves true) (fun rule => ih true rule)
            (grammar.body rule)
          exact (hbody _ _ _ _ hread).weaken hle
      | false =>
          have hbody := read_moves (grammar.gap_moves (grammar.isToken rule))
            (fun rule' => ih (grammar.isToken rule) rule') (grammar.body rule)
          simp only [call] at hread
          split at hread
          next hread' =>
            cases hread
            exact (hbody _ _ _ _ hread').weaken hle
          next => cases hread

end PlZero.Grammar
