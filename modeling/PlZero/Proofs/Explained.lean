import PlZero.Proofs.Admission
import PlZero.Proofs.Grammar.Readings
import PlZero.Proofs.Peg.Calls

/-! # Readings that note nothing but what may be noted

A rule may be noted at a place where something that it matches could stand. If that is so for the
calls of a pattern, it is so for the pattern: where its next part is read, the place admits this
part, whatever has been tried before.
-/

namespace PlZero

open Peg PlZero.Language
open Relation (Comp ReflTransGen)

/-- A rule matches a text from its start to its end. -/
def Matches (rule : Rule) (run : List Char) : Prop :=
  ∃ node, language.match? rule run = .ok node ∧ node.text = run

/-- What stands before a place can be completed to a good text by blanks, something that the rule
matches and something else; nothing stands behind the end of the text. -/
def Expects (good : List Char → Prop) (before : List Char) (rule : Rule) : Prop :=
  ∃ blanks run rest, (∀ char ∈ blanks, isBlank char) ∧ Matches rule run ∧
    (rule = .finish → run = [] ∧ rest = []) ∧ good (before ++ blanks ++ run ++ rest)

/-- A rule may be noted at a place: it is expected there, and no blank stands there. -/
def Notable (good : List Char → Prop) (text : List Char) (offset : Nat) (rule : Rule) : Prop :=
  ∃ before after, text = before ++ after ∧ before.length = offset ∧
    (∀ char ∈ after.head?, isBlank char = false) ∧ Expects good before rule

/-- What stands before a place does not depend on the rule that is noted there. -/
theorem Notable.expects {good : List Char → Prop} {before after : List Char} {rule : Rule}
    (hnotable : Notable good (before ++ after) before.length rule) : Expects good before rule := by
  obtain ⟨_, _, htext, hlength, -, hexpects⟩ := hnotable
  exact (List.append_inj_left htext hlength.symm) ▸ hexpects

/-- A rule matches its sample. -/
theorem matches_sample (rule : Rule) : Matches rule rule.sample := by
  have hall : ∀ rule ∈ Rule.list, (language.match? rule rule.sample).toOption.any
      fun node => node.text == rule.sample := by
    decide +kernel
  obtain ⟨node, hnode, htext⟩ := Option.any_eq_true _ _ |>.mp (hall rule rule.mem_list)
  cases hmatch : language.match? rule rule.sample with
  | error trace => simp [hmatch, Except.toOption] at hnode
  | ok other =>
      obtain rfl : other = node := by simpa [hmatch, Except.toOption] using hnode
      exact ⟨other, hmatch, by simpa using htext⟩

theorem head?_of_settled {cursor : Cursor} (hsettled : Settled cursor) :
    ∀ char ∈ cursor.rest.head?, isBlank char = false := by
  intro char hchar
  have hhead := List.head?_dropWhile_not isBlank cursor.rest
  have hrest : cursor.rest.dropWhile isBlank = cursor.rest := by rw [← rest_gap, hsettled]
  rw [hrest, Option.mem_def.mp hchar] at hhead
  simpa using hhead

section Notes

variable {good : List Char → Prop} {text : List Char}

/-- A rule is expected where its phrases are admitted. -/
theorem notable_of_admitsAt {rule : Rule} (hrule : rule.isInner) {cursor : Cursor}
    (hsettled : Settled cursor) (hadmits : AdmitsAt good text cursor rule.Phrase) :
    Notable good text cursor.offset rule := by
  obtain ⟨before, tail, htext, hbefore, htail, hadmits⟩ := hadmits
  refine ⟨before, cursor.rest, htext, hbefore, head?_of_settled hsettled,
    [' '], rule.sample, tail, List.forall_mem_singleton.mpr rfl, matches_sample rule, ?_, ?_⟩
  · rintro rfl
    cases hrule
  · have hgood := hadmits _ (.blank _ rfl _)
      ⟨tail, (Rule.phrase_sample hrule htail).of_skips (.space _), .refl tail⟩
    simpa using hgood

/-- What is known of a reading: where it stops, what it took, and that it notes nothing but what
may be noted, if it started at a place that admits it. -/
structure Explains (good : List Char → Prop) (text : List Char)
    (relates : List Char → List Char → Prop) (cursor : Cursor) (trace : Trace Rule)
    (outcome : Outcome Rule) : Prop where
  moves : ∀ found after, outcome = (some found, after) → cursor.Ahead 0 found.stop
  reads : ∀ found after, outcome = (some found, after) → cursor.In text →
    Comp relates Skips cursor.rest found.stop.rest
  notes : cursor.In text → Settled cursor → AdmitsAt good text cursor relates →
    trace.Among (Notable good text) → outcome.2.Among (Notable good text)

variable {relates : List Char → List Char → Prop} {cursor : Cursor} {trace : Trace Rule}

/-- Of a reading that finds nothing, only the notes matter. -/
theorem Explains.nothing {after : Trace Rule}
    (hnotes : cursor.In text → Settled cursor → AdmitsAt good text cursor relates →
      trace.Among (Notable good text) → after.Among (Notable good text)) :
    Explains good text relates cursor trace (none, after) where
  moves found stop hread := by cases hread
  reads found stop hread := by cases hread
  notes := hnotes

theorem Explains.silent (relates : List Char → List Char → Prop) (cursor : Cursor)
    (trace : Trace Rule) : Explains good text relates cursor trace (none, trace) :=
  .nothing fun _ _ _ htrace => htrace

theorem Explains.mono {fewer : List Char → List Char → Prop} {outcome : Outcome Rule}
    (hexplains : Explains good text fewer cursor trace outcome)
    (himp : ∀ input rest, fewer input rest → relates input rest) :
    Explains good text relates cursor trace outcome where
  moves := hexplains.moves
  reads found after hread hin := by
    obtain ⟨stop, hfewer, hstop⟩ := hexplains.reads found after hread hin
    exact ⟨stop, himp _ _ hfewer, hstop⟩
  notes hin hsettled hadmits := hexplains.notes hin hsettled (hadmits.mono himp)

theorem Explains.fail {first : List Char → List Char → Prop} {after : Trace Rule}
    (hexplains : Explains good text first cursor trace (none, after))
    (hadmits : AdmitsAt good text cursor relates → AdmitsAt good text cursor first) :
    Explains good text relates cursor trace (none, after) :=
  .nothing fun hin hsettled hrelates => hexplains.notes hin hsettled (hadmits hrelates)

/-- Every reading of a reader is explained. -/
def Explained (good : List Char → Prop) (text : List Char)
    (relates : List Char → List Char → Prop) (reader : Reader Rule) : Prop :=
  ∀ cursor trace, Explains good text relates cursor trace (reader cursor trace)

namespace Explained

variable {call : Rule → Reader Rule} {first next body : Peg Rule}
  {start others : List Char → List Char → Prop}

theorem seq (hfirst : Explained good text start (first.read call (language.gap false)))
    (hnext : Explained good text others (next.read call (language.gap false)))
    (hportable : ∀ input rest, start input rest → Portable start input rest)
    (hslides : Slides others)
    (hsample : ∀ tail, StartsLike [] tail → ∃ middle, StartsLike [] middle ∧ others middle tail) :
    Explained good text (Comp start others)
      ((Peg.seq first next).read call (language.gap false)) := by
  intro cursor trace
  have hstart := hfirst cursor trace
  rw [Peg.read]
  generalize first.read call (language.gap false) cursor trace = outcome at hstart ⊢
  rcases outcome with ⟨_ | found, after⟩
  · exact hstart.fail fun hadmits => hadmits.front hslides hsample
  · have hothers := hnext (language.gap false found.stop) after
    have hahead : cursor.Ahead 0 (language.gap false found.stop) :=
      (hstart.moves found after rfl).trans (language.gap_moves false found.stop)
    have hreads : cursor.In text → Comp start Skips cursor.rest
        (language.gap false found.stop).rest := by
      intro hin
      obtain ⟨stop, hstop, hskips⟩ := hstart.reads found after rfl hin
      exact ⟨stop, hstop, hskips.trans (skips_gap found.stop)⟩
    have hnotes : cursor.In text → Settled cursor → AdmitsAt good text cursor (Comp start others) →
        trace.Among (Notable good text) →
        (next.read call (language.gap false) (language.gap false found.stop) after).2.Among
          (Notable good text) := by
      intro hin hsettled hadmits htrace
      exact hothers.notes (hin.of_ahead hahead) (settled_gap found.stop)
        (hadmits.behind hslides hportable hahead (hreads hin))
        (hstart.notes hin hsettled (hadmits.front hslides hsample) htrace)
    simp only
    generalize next.read call (language.gap false) (language.gap false found.stop) after = outcome
      at hothers hnotes ⊢
    rcases outcome with ⟨_ | last, later⟩
    · exact .nothing hnotes
    · refine ⟨?_, ?_, hnotes⟩
      · rintro _ _ ⟨⟩
        exact hahead.trans (hothers.moves last later rfl)
      · rintro _ _ ⟨⟩ hin
        exact hslides.comp_skips (hreads hin) (hothers.reads last later rfl (hin.of_ahead hahead))

theorem choice {first other : Peg Rule}
    (hfirst : Explained good text start (first.read call (language.gap false)))
    (hother : Explained good text others (other.read call (language.gap false))) :
    Explained good text (fun input rest => start input rest ∨ others input rest)
      ((Peg.choice first other).read call (language.gap false)) := by
  intro cursor trace
  have hstart := hfirst cursor trace
  rw [Peg.read]
  generalize first.read call (language.gap false) cursor trace = outcome at hstart ⊢
  rcases outcome with ⟨_ | found, after⟩
  · have hexplains : Explains good text (fun input rest => start input rest ∨ others input rest)
        cursor after _ := (hother cursor after).mono fun _ _ => .inr
    refine ⟨hexplains.moves, hexplains.reads, fun hin hsettled hadmits htrace => ?_⟩
    exact hexplains.notes hin hsettled hadmits
      (hstart.notes hin hsettled (hadmits.mono fun _ _ => .inl) htrace)
  · exact hstart.mono fun _ _ => .inl

/-- Further items, each behind a gap, are items of the same repetition. -/
theorem repeatRead {item : Reader Rule} {relates : List Char → List Char → Prop}
    (hitem : Explained good text relates item)
    (hportable : ∀ input rest, relates input rest → Portable relates input rest)
    (hslides : Slides relates) (hall : Slides (ReflTransGen relates)) (bound : Nat)
    (cursor : Cursor) (trace : Trace Rule) (hin : cursor.In text) :
    cursor.Ahead 0 (Peg.repeatRead (language.gap false) item bound cursor trace).1.stop ∧
      Comp (ReflTransGen relates) Skips cursor.rest
        (Peg.repeatRead (language.gap false) item bound cursor trace).1.stop.rest ∧
      (AdmitsAt good text cursor (ReflTransGen relates) → trace.Among (Notable good text) →
        (Peg.repeatRead (language.gap false) item bound cursor trace).2.Among
          (Notable good text)) := by
  induction bound generalizing cursor trace with
  | zero => exact ⟨.refl cursor, ⟨_, .refl, .refl _⟩, fun _ => id⟩
  | succ bound ih =>
      have hgap : cursor.Ahead 0 (language.gap false cursor) := language.gap_moves false cursor
      have hfirst := hitem (language.gap false cursor) trace
      have hnotes : AdmitsAt good text cursor (ReflTransGen relates) →
          trace.Among (Notable good text) →
          (item (language.gap false cursor) trace).2.Among (Notable good text) := by
        intro hadmits
        exact hfirst.notes (hin.of_ahead hgap) (settled_gap cursor)
          ((hadmits.skip hall hgap (skips_gap cursor)).mono fun _ _ => .single)
      rw [Peg.repeatRead]
      generalize item (language.gap false cursor) trace = outcome at hfirst hnotes ⊢
      rcases outcome with ⟨_ | found, after⟩
      · exact ⟨.refl cursor, ⟨_, .refl, .refl _⟩, hnotes⟩
      · have hahead := hgap.trans (hfirst.moves found after rfl)
        obtain ⟨middle, hmiddle, hskips⟩ := hfirst.reads found after rfl (hin.of_ahead hgap)
        obtain ⟨stop, hstop, hstopSkips⟩ := hslides _ _ _ (skips_gap cursor) hmiddle
        have hreads : Comp relates Skips cursor.rest found.stop.rest :=
          ⟨stop, hstop, hstopSkips.trans hskips⟩
        obtain ⟨hmoves, hothers, hnotesOthers⟩ := ih found.stop after (hin.of_ahead hahead)
        refine ⟨hahead.trans hmoves, ?_, fun hadmits htrace => ?_⟩
        · obtain ⟨last, ⟨_, hhead, htail⟩, hlast⟩ := hall.comp_skips hreads hothers
          exact ⟨last, htail.head hhead, hlast⟩
        · refine hnotesOthers ?_ (hnotes hadmits htrace)
          have hcomp : AdmitsAt good text cursor (Comp relates (ReflTransGen relates)) := by
            refine hadmits.mono ?_
            rintro _ _ ⟨_, hhead, htail⟩
            exact htail.head hhead
          exact hcomp.behind hall hportable hahead hreads

theorem star (hbody : Explained good text body.Phrase (body.read call (language.gap false))) :
    Explained good text (Peg.star body).Phrase
      ((Peg.star body).read call (language.gap false)) := by
  intro cursor trace
  have hfirst := hbody cursor trace
  have hnotes : cursor.In text → Settled cursor →
      AdmitsAt good text cursor (Peg.star body).Phrase → trace.Among (Notable good text) →
      (body.read call (language.gap false) cursor trace).2.Among (Notable good text) :=
    fun hin hsettled hadmits => hfirst.notes hin hsettled (hadmits.mono fun _ _ => .single)
  rw [Peg.read]
  generalize body.read call (language.gap false) cursor trace = outcome at hfirst hnotes ⊢
  rcases outcome with ⟨_ | found, after⟩
  · refine ⟨?_, ?_, hnotes⟩
    · rintro _ _ ⟨⟩
      exact .refl cursor
    · rintro _ _ ⟨⟩ -
      exact ⟨cursor.rest, .refl, .refl _⟩
  · have hmoves := hfirst.moves found after rfl
    have hothers := fun hin : cursor.In text => repeatRead hbody (fun _ _ => Phrase.portable)
      body.slides_phrase (Peg.star body).slides_phrase (found.stop.rest.length + 1) found.stop after
      (hin.of_ahead hmoves)
    have hahead := repeatRead_moves (language.gap_moves false)
      (fun cursor trace => (hbody cursor trace).moves) (found.stop.rest.length + 1) found.stop after
    simp only
    generalize Peg.repeatRead (language.gap false) (body.read call (language.gap false))
      (found.stop.rest.length + 1) found.stop after = others at hothers hahead ⊢
    refine ⟨?_, ?_, fun hin hsettled hadmits htrace => ?_⟩
    · rintro _ _ ⟨⟩
      exact hmoves.trans hahead
    · rintro _ _ ⟨⟩ hin
      obtain ⟨stop, ⟨_, hhead, htail⟩, hstop⟩ := (Peg.star body).slides_phrase.comp_skips
        (hfirst.reads found after rfl hin) (hothers hin).2.1
      exact ⟨stop, htail.head hhead, hstop⟩
    · refine (hothers hin).2.2 ?_ (hnotes hin hsettled hadmits htrace)
      have hcomp : AdmitsAt good text cursor (Comp body.Phrase (Peg.star body).Phrase) := by
        refine hadmits.mono ?_
        rintro _ _ ⟨_, hhead, htail⟩
        exact htail.head hhead
      exact hcomp.behind (Peg.star body).slides_phrase (fun _ _ => Phrase.portable) hmoves
        (hfirst.reads found after rfl hin)

/-- A parsing expression that looks at nothing it does not take is explained if its calls are. -/
theorem read (hcall : ∀ rule, rule.isInner → Explained good text rule.Phrase (call rule))
    (peg : Peg Rule) (hpeg : peg.isPlain) :
    Explained good text peg.Phrase (peg.read call (language.gap false)) := by
  induction peg with
  | empty =>
      refine fun cursor trace => ⟨?_, ?_, fun _ _ _ htrace => htrace⟩
      · rintro _ _ ⟨⟩
        exact .refl cursor
      · rintro _ _ ⟨⟩ -
        exact ⟨cursor.rest, rfl, .refl _⟩
  | word word =>
      intro cursor trace
      rw [Peg.read]
      split
      next hprefix =>
        obtain ⟨rest, hrest⟩ := List.isPrefixOf_iff_prefix.mp hprefix
        have hlength := (List.isPrefixOf_iff_prefix.mp hprefix).length_le
        refine ⟨?_, ?_, fun _ _ _ htrace => htrace⟩
        · rintro _ _ ⟨⟩
          exact ⟨word.length, Nat.zero_le _, hlength, rfl⟩
        · rintro _ _ ⟨⟩ -
          refine ⟨rest, hrest ▸ .refl _, ?_⟩
          rw [advance_of_eq_append hrest.symm]
      next => exact .silent _ cursor trace
  | seq first next ihfirst ihnext =>
      obtain ⟨hfirst, hnext⟩ := Bool.and_eq_true_iff.mp hpeg
      exact seq (ihfirst hfirst) (ihnext hnext) (fun _ _ => Phrase.portable) next.slides_phrase
        fun _ => exists_phrase hnext
  | choice first other ihfirst ihother =>
      obtain ⟨hfirst, hother⟩ := Bool.and_eq_true_iff.mp hpeg
      exact choice (ihfirst hfirst) (ihother hother)
  | star body ih => exact star (ih hpeg)
  | enter rule => exact hcall rule hpeg
  | char _ | ahead _ _ | notAhead _ _ => cases hpeg

end Explained

/-- What is known of the body of a rule is known of the rule. -/
theorem Explains.conclude {rule : Rule} (hrule : rule.isInner)
    (himp : ∀ input rest, relates input rest → rule.Phrase input rest) {outcome : Outcome Rule}
    (hexplains : Explains good text relates cursor trace outcome) :
    Explains good text rule.Phrase cursor trace
      (Grammar.conclude rule cursor trace outcome) := by
  have hexplains := hexplains.mono himp
  rcases outcome with ⟨_ | found, after⟩
  · refine .nothing fun hin hsettled hadmits htrace => ?_
    exact (hexplains.notes hin hsettled hadmits htrace).record
      (notable_of_admitsAt hrule hsettled hadmits)
  · refine ⟨?_, ?_, hexplains.notes⟩
    · rintro _ _ ⟨⟩
      exact hexplains.moves found after rfl
    · rintro _ _ ⟨⟩
      exact hexplains.reads found after rfl

end Notes

end PlZero
