import PlZero.Proofs.Peg.Notes

/-! # Characters that a grammar does not tell apart

If no word of a grammar and no class of characters in it tells a character from its replacement,
then replacing characters changes neither what matches nor what is noted.
-/

namespace PlZero.Peg

variable {R : Type} {recode : Char → Char}

/-- The place with all characters behind it replaced. -/
def Cursor.map (recode : Char → Char) (cursor : Cursor) : Cursor :=
  ⟨cursor.offset, cursor.rest.map recode⟩

theorem Cursor.map_advance (recode : Char → Char) (cursor : Cursor) (count : Nat) :
    (cursor.map recode).advance count = (cursor.advance count).map recode := by
  simp only [map, advance, List.map_drop]

/-- A parsing expression does not tell characters from their replacements. -/
def Blind (recode : Char → Char) : Peg R → Prop
  | .word text => ∀ char ∈ text, ∀ other, recode other = char ↔ other = char
  | .char accepts => ∀ char, accepts (recode char) = accepts char
  | .seq first next | .choice first next => first.Blind recode ∧ next.Blind recode
  | .star body | .ahead body | .notAhead body => body.Blind recode
  | .empty | .enter _ => True

/-- Two outcomes differ in replaced characters only. -/
inductive Recoded (recode : Char → Char) : Outcome R → Outcome R → Prop where
  | failed {trace} : Recoded recode (none, trace) (none, trace)
  | found {nodes others stop trace} :
      Recoded recode (some ⟨nodes, stop.map recode⟩, trace) (some ⟨others, stop⟩, trace)

/-- A reader does not see whether characters have been replaced. -/
def Commutes (recode : Char → Char) (reader : Reader R) : Prop :=
  ∀ cursor trace, Recoded recode (reader (cursor.map recode) trace) (reader cursor trace)

theorem isPrefixOf_map {text : List Char}
    (htext : ∀ char ∈ text, ∀ other, recode other = char ↔ other = char) (rest : List Char) :
    text.isPrefixOf (rest.map recode) = text.isPrefixOf rest := by
  induction text generalizing rest with
  | nil => rfl
  | cons head text ih =>
      obtain ⟨hhead, htail⟩ := List.forall_mem_cons.mp htext
      cases rest with
      | nil => rfl
      | cons char rest =>
          have hsame : (head == recode char) = (head == char) := by
            rw [Bool.eq_iff_iff, beq_iff_eq, beq_iff_eq, eq_comm, hhead char, eq_comm]
          rw [List.map_cons, List.isPrefixOf, List.isPrefixOf, hsame, ih htail]

section Read

variable {gap : Cursor → Cursor}
  (hgap : ∀ cursor, gap (cursor.map recode) = (gap cursor).map recode)

include hgap

theorem repeatRead_recoded {item : Reader R} (hitem : Commutes recode item) (bound : Nat)
    (cursor : Cursor) (trace : Trace R) :
    (repeatRead gap item bound (cursor.map recode) trace).1.stop =
        (repeatRead gap item bound cursor trace).1.stop.map recode ∧
      (repeatRead gap item bound (cursor.map recode) trace).2 =
        (repeatRead gap item bound cursor trace).2 := by
  induction bound generalizing cursor trace with
  | zero => exact ⟨rfl, rfl⟩
  | succ bound ih =>
      have hfirst := hitem (gap cursor) trace
      rw [repeatRead, repeatRead, hgap]
      generalize item ((gap cursor).map recode) trace = left at hfirst ⊢
      generalize item (gap cursor) trace = right at hfirst ⊢
      cases hfirst with
      | failed => exact ⟨rfl, rfl⟩
      | @found nodes others stop after => exact ih stop after

theorem read_commutes {call : R → Reader R} (hcall : ∀ rule, Commutes recode (call rule))
    (peg : Peg R) (hpeg : peg.Blind recode) : Commutes recode (peg.read call gap) := by
  induction peg with
  | empty => exact fun cursor trace => .found
  | word text =>
      intro cursor trace
      rw [read, read, Cursor.map_advance, Cursor.map, isPrefixOf_map hpeg]
      split
      next => exact .found
      next => exact .failed
  | char accepts =>
      rintro ⟨offset, _ | ⟨head, rest⟩⟩ trace
      · exact .failed
      · simp only [Cursor.map, List.map_cons, read, hpeg head]
        split
        next => exact @Recoded.found _ _ [] [] (Cursor.advance ⟨offset, head :: rest⟩ 1) trace
        next => exact .failed
  | seq first next ihfirst ihnext =>
      intro cursor trace
      have hfirst := ihfirst hpeg.1 cursor trace
      rw [read, read]
      generalize first.read call gap (cursor.map recode) trace = left at hfirst ⊢
      generalize first.read call gap cursor trace = right at hfirst ⊢
      cases hfirst with
      | failed => exact .failed
      | @found nodes others stop after =>
          have hnext := ihnext hpeg.2 (gap stop) after
          simp only [hgap]
          generalize next.read call gap ((gap stop).map recode) after = left at hnext ⊢
          generalize next.read call gap (gap stop) after = right at hnext ⊢
          cases hnext with
          | failed => exact .failed
          | found => exact .found
  | choice first other ihfirst ihother =>
      intro cursor trace
      have hfirst := ihfirst hpeg.1 cursor trace
      rw [read, read]
      generalize first.read call gap (cursor.map recode) trace = left at hfirst ⊢
      generalize first.read call gap cursor trace = right at hfirst ⊢
      cases hfirst with
      | failed => exact ihother hpeg.2 cursor _
      | found => exact .found
  | star body ih =>
      intro cursor trace
      have hfirst := ih hpeg cursor trace
      rw [read, read]
      generalize body.read call gap (cursor.map recode) trace = left at hfirst ⊢
      generalize body.read call gap cursor trace = right at hfirst ⊢
      cases hfirst with
      | failed => exact .found
      | @found nodes others stop after =>
          have hlength : (stop.map recode).rest.length = stop.rest.length := by simp [Cursor.map]
          obtain ⟨hstop, hafter⟩ :=
            repeatRead_recoded hgap (ih hpeg) (stop.rest.length + 1) stop after
          simp only [hlength, hstop, hafter]
          exact .found
  | ahead body ih | notAhead body ih =>
      intro cursor trace
      have hbody := ih hpeg cursor trace
      rw [read, read]
      generalize body.read call gap (cursor.map recode) trace = left at hbody ⊢
      generalize body.read call gap cursor trace = right at hbody ⊢
      cases hbody with
      | failed => first | exact .failed | exact .found
      | found => first | exact .failed | exact .found
  | enter rule => exact hcall rule

end Read

end PlZero.Peg

namespace PlZero.Grammar

open Peg

variable {R : Type} {grammar : Grammar R} {recode : Char → Char}

/-- No body and no gap of a grammar tells characters from their replacements. -/
structure Blind (grammar : Grammar R) (recode : Char → Char) : Prop where
  body : ∀ rule, (grammar.body rule).Blind recode
  blank : ∀ char, grammar.blank (recode char) = grammar.blank char

theorem Blind.gap_map (hblind : grammar.Blind recode) (inToken : Bool) (cursor : Cursor) :
    grammar.gap inToken (cursor.map recode) = (grammar.gap inToken cursor).map recode := by
  cases inToken with
  | true => rfl
  | false =>
      have hblank : grammar.blank ∘ recode = grammar.blank := funext hblind.blank
      simp only [gap, Cursor.skip, Bool.false_eq_true, if_false]
      rw [← Cursor.map_advance, Cursor.map, List.takeWhile_map, hblank, List.length_map]

theorem Blind.call_commutes (hblind : grammar.Blind recode) (depth : Nat) (inToken : Bool)
    (rule : R) : Commutes recode (grammar.call depth inToken rule) := by
  induction depth generalizing inToken rule with
  | zero => cases inToken <;> exact fun cursor trace => .failed
  | succ depth ih =>
      have hbody := fun inToken =>
        read_commutes (hblind.gap_map inToken) (ih inToken) (grammar.body rule) (hblind.body rule)
      cases inToken with
      | true => exact hbody true
      | false =>
          intro cursor trace
          have hread := hbody (grammar.isToken rule) cursor trace
          simp only [call]
          generalize Peg.read _ _ _ (cursor.map recode) trace = left at hread ⊢
          generalize Peg.read _ _ _ cursor trace = right at hread ⊢
          cases hread with
          | failed => exact .failed
          | found => exact .found

/-- A text and its replacement are rejected with the same notes. -/
theorem Blind.match?_map_eq_error_iff (hblind : grammar.Blind recode) (ranked : grammar.Ranked)
    {rule : R} {text : List Char} {trace : Trace R} :
    grammar.match? rule (text.map recode) = .error trace ↔
      grammar.match? rule text = .error trace := by
  have hcall := hblind.call_commutes (grammar.depth text.length) false rule (.start text) .start
  rw [ranked.match?_eq_error_iff, ranked.match?_eq_error_iff, run, run]
  simp only [Cursor.start, Cursor.map, List.length_map] at hcall ⊢
  generalize grammar.call _ false rule ⟨0, text.map recode⟩ .start = left at hcall ⊢
  generalize grammar.call _ false rule ⟨0, text⟩ .start = right at hcall ⊢
  cases hcall with
  | failed => exact Iff.rfl
  | found => simp

theorem Blind.exists_match?_map_iff (hblind : grammar.Blind recode) (ranked : grammar.Ranked)
    {rule : R} {text : List Char} :
    (∃ node, grammar.match? rule (text.map recode) = .ok node) ↔
      ∃ node, grammar.match? rule text = .ok node := by
  constructor
  · rintro ⟨node, hmatch⟩
    cases htext : grammar.match? rule text with
    | ok other => exact ⟨other, rfl⟩
    | error trace => cases hmatch.symm.trans ((hblind.match?_map_eq_error_iff ranked).mpr htext)
  · rintro ⟨node, hmatch⟩
    cases htext : grammar.match? rule (text.map recode) with
    | ok other => exact ⟨other, rfl⟩
    | error trace => cases hmatch.symm.trans ((hblind.match?_map_eq_error_iff ranked).mp htext)

end PlZero.Grammar
