import PlZero.Proofs.Announced
import PlZero.Proofs.Stmt.Patterns

/-! # Reading two texts with a common start

A text is read beside another one that is the same up to a cut. Either the same is found in both
for as long as the cut has not been reached, or a failure at the cut or behind it has been noted.
Where two parts of a rule follow one another and the cut lies between them, it is enough that the
second one notes its failure, or that the first one has noted something where it stops.
-/

namespace PlZero

open Peg PlZero.Language

/-- The tokens that do not go on over a cut. -/
def Rule.exact : Rule → Bool
  | .str | .bool _ | .printWord | .ident => true
  | _ => false

namespace Peg

/-- Whether what is found before a cut does not go on over it. -/
def exact : Peg Rule → Bool
  | .word text => text.all Char.isAlpha
  | .ahead body => body.exact
  | .enter rule => rule.exact
  | _ => false

/-- Whether nothing is taken. -/
def looks : Peg Rule → Bool
  | .ahead _ => true
  | _ => false

/-- Whether a sign comes first that is not behind the cut in the other text, and failures behind
the sign are noted. -/
def opens : Peg Rule → Bool
  | .seq (.word (sign :: _)) next => ['=', '('].contains sign && next.tells
  | _ => false

/-- Whether two parts follow one another in such a way that the cut is noted if it lies between
them. -/
def joins (first next : Peg Rule) : Bool :=
  next.tells || first.closes || first.looks || (first.exact && next.opens)

/-- Whether all parts that follow one another are joined. -/
def steady : Peg Rule → Bool
  | .empty => true
  | .word text => text.all fun char => !isBlank char && char ≠ '"'
  | .seq first next => first.steady && next.steady && first.joins next
  | .choice first other => first.steady && other.steady
  | .star body => body.steady && body.eats Language.eats
  | .ahead body => body.steady && body.exact
  | .enter rule => rule.isInner
  | .char _ | .notAhead _ => false

end Peg

theorem Rule.steady_body {rule : Rule} (hrule : rule.isInner) (htoken : isToken rule = false) :
    (body rule).steady := by
  cases rule with
  | compare op => cases op <;> decide
  | arith op => cases op <;> decide
  | int | str | bool _ | reserved | printWord | ident => cases htoken
  | finish | program | wholeExpr | wholeStmt => cases hrule
  | _ => decide

/-! ## Parsing expressions -/

theorem stop_of_looks {call : Rule → Reader Rule} {peg : Peg Rule} (hlooks : peg.looks)
    {cursor : Cursor} {trace later : Trace Rule} {found : Found Rule}
    (hread : peg.read call (language.gap false) cursor trace = (some found, later)) :
    found.stop = cursor := by
  cases peg with
  | ahead body =>
      rw [Peg.read] at hread
      split at hread <;> cases hread
      rfl
  | _ => cases hlooks

/-- A sign that the other text avoids behind the cut is not found there. -/
theorem scan_eq_none_of_opens {peg : Peg Rule} (hopens : peg.opens) {cursor : Cursor}
    {more : List Char} (havoids : Avoids ['=', '('] more)
    (hrest : cursor.rest = more.dropWhile isBlank) :
    language.scan false peg cursor = none := by
  unfold Peg.opens at hopens
  split at hopens
  next char text next =>
    obtain ⟨hchar, -⟩ := Bool.and_eq_true_iff.mp hopens
    have hprefix : ¬ (char :: text).isPrefixOf cursor.rest := by
      intro hprefix
      obtain ⟨tail, htail⟩ := List.isPrefixOf_iff_prefix.mp hprefix
      refine havoids char ?_ (List.contains_iff_mem.mp hchar)
      rw [nextChar?, ← hrest, ← htail]
      rfl
    rw [Grammar.scan_seq, Grammar.scan_word, if_neg hprefix, Option.bind_none]
  next => cases hopens

variable {before after more : List Char}

/-- The same is found at two places, unless a failure at the cut or behind it is noted. -/
def Alongside (before after more : List Char) (mayPass : Bool) (outcome : Outcome Rule)
    (next : Option (Found Rule)) : Prop :=
  before.length ≤ outcome.2.offset ∨ Beside before after more mayPass outcome.1 next

/-- What is known of a call outside tokens: it is heeded, and at level places the same is found. -/
structure Tracks (before after more : List Char) (rule : Rule) (cursor : Cursor)
    (trace : Trace Rule) (outcome : Outcome Rule) : Prop
    extends Heeds before.length rule cursor trace outcome where
  alongside : rule.isInner → ∀ other, Level before after more cursor other →
    Alongside before after more (!rule.exact) outcome (language.find false rule other)

/-- At level places a parsing expression finds the same. -/
def ReadsAlong (before after more : List Char) (call : Rule → Reader Rule) (mayPass : Bool)
    (peg : Peg Rule) : Prop :=
  ∀ cursor other trace, Level before after more cursor other →
    Alongside before after more mayPass (peg.read call (language.gap false) cursor trace)
      (language.scan false peg other)

theorem ReadsAlong.weaken {call : Rule → Reader Rule} {mayPass : Bool} {peg : Peg Rule}
    (hpeg : ReadsAlong before after more call mayPass peg) :
    ReadsAlong before after more call true peg :=
  fun cursor other trace hlevel => (hpeg cursor other trace hlevel).imp_right Beside.weaken

section Read

variable {call : Rule → Reader Rule} {first next body : Peg Rule}
  (hcall : ∀ rule cursor trace, Heeds before.length rule cursor trace (call rule cursor trace))

include hcall

/-- Behind the first one of two parts that are joined, a cut that it has passed is noted, or passed
by the second one too. -/
theorem alongside_of_passed (hjoins : first.joins next) {cursor other : Cursor}
    {trace later : Trace Rule} {found : Found Rule} {others : Option (Found Rule)}
    (hlevel : Level before after more cursor other)
    (hread : first.read call (language.gap false) cursor trace = (some found, later))
    (hpassed : Passed before.length found.stop)
    (hopens : first.exact → next.opens → others = none) :
    Alongside before after more true
      ((Peg.seq first next).read call (language.gap false) cursor trace) others := by
  have hfirst := announces_read hcall first hlevel.settled trace
  have hnext := announces_read hcall next (settled_gap found.stop) later
  have hmoves := moves_read hcall next (language.gap false found.stop) later
  have hkeeps := keeps_read hcall next (language.gap false found.stop) later
  rw [read_seq_of_some hread]
  rw [hread] at hfirst
  generalize next.read call (language.gap false) (language.gap false found.stop) later = outcome
    at hnext hmoves hkeeps ⊢
  rcases outcome with ⟨_ | last, latest⟩
  · simp only [Peg.joins, Bool.or_eq_true, Bool.and_eq_true] at hjoins
    rcases hjoins with ((htells | hcloses) | hlooks) | ⟨hexact, hopening⟩
    · exact .inl (hnext.tells htells hpassed rfl)
    · exact .inl (hkeeps (hfirst.closes hcloses found rfl hpassed))
    · rw [stop_of_looks hlooks hread] at hpassed
      exact absurd hpassed hlevel.not_passed
    · rw [hopens hexact hopening]
      exact .inr .fails
  · have hgap := hpassed.of_ahead (language.gap_moves false found.stop)
    exact .inr (.passes rfl (hgap.of_ahead (hmoves last latest rfl)))

theorem ReadsAlong.seq (hseam : Seam before after more) (hjoins : first.joins next)
    (hfirst : ReadsAlong before after more call (!first.exact) first)
    (hnext : ReadsAlong before after more call true next) :
    ReadsAlong before after more call true (.seq first next) := by
  intro cursor other trace hlevel
  have hstart := hfirst cursor other trace hlevel
  cases hread : first.read call (language.gap false) cursor trace with
  | mk result later =>
  rw [hread] at hstart
  rw [Grammar.scan_seq]
  cases result with
  | none =>
      rw [Peg.read, hread]
      rcases hstart with hfar | hbeside
      · exact .inl hfar
      · generalize language.scan false first other = start at hbeside ⊢
        cases hbeside
        exact .inr .fails
  | some found =>
      rcases hstart with hfar | hbeside
      · rw [read_seq_of_some hread]
        exact .inl (keeps_read hcall next _ later hfar)
      · generalize language.scan false first other = start at hbeside ⊢
        cases hbeside with
        | @stays _ _ start htwins =>
            rcases htwins.gap with hlevel' | ⟨hpassed, hrest⟩
            · rw [read_seq_of_some hread]
              exact (hnext _ _ later hlevel').imp_right (.map (fun _ => rfl) fun _ => rfl)
            · refine alongside_of_passed hcall hjoins hlevel hread hpassed fun _ hopens => ?_
              rw [Option.bind_some, scan_eq_none_of_opens hopens hseam.avoids hrest,
                Option.map_none]
        | passes hmay hpassed =>
            refine alongside_of_passed hcall hjoins hlevel hread hpassed fun hexact => ?_
            rw [hexact] at hmay
            cases hmay

theorem ReadsAlong.choice {passFirst passNext : Bool}
    (hfirst : ReadsAlong before after more call passFirst first)
    (hnext : ReadsAlong before after more call passNext next) :
    ReadsAlong before after more call true (.choice first next) := by
  intro cursor other trace hlevel
  have hstart := hfirst.weaken cursor other trace hlevel
  rw [Peg.read, Grammar.scan_choice]
  generalize first.read call (language.gap false) cursor trace = outcome at hstart ⊢
  generalize language.scan false first other = start at hstart ⊢
  rcases outcome with ⟨_ | found, later⟩
  · rcases hstart with hfar | hbeside
    · exact .inl (keeps_read hcall next cursor later hfar)
    · cases hbeside
      exact hnext.weaken cursor other later hlevel
  · rcases hstart with hfar | hbeside
    · exact .inl hfar
    · cases hbeside with
      | stays htwins => exact .inr (.stays htwins)
      | passes _ hpassed => exact .inr (.passes rfl hpassed)

omit hcall in
/-- Looking ahead, one does not come to the cut. -/
theorem ReadsAlong.ahead (hbody : ReadsAlong before after more call false body) :
    ReadsAlong before after more call false (.ahead body) := by
  intro cursor other trace hlevel
  have hstart := hbody cursor other trace hlevel
  rw [Peg.read, Grammar.scan_ahead]
  generalize body.read call (language.gap false) cursor trace = outcome at hstart ⊢
  generalize language.scan false body other = start at hstart ⊢
  rcases outcome with ⟨_ | found, later⟩
  · rcases hstart with hfar | hbeside
    · exact .inl hfar
    · cases hbeside
      exact .inr .fails
  · rcases hstart with hfar | hbeside
    · exact .inl hfar
    · obtain ⟨head, tail, -, htwins⟩ := hlevel
      cases hbeside with
      | stays => exact .inr (.stays htwins)
      | passes hmay => cases hmay

/-- The items of two repetitions are the same as long as the cut has not been reached. -/
theorem alongside_items (hbody : ReadsAlong before after more call true body)
    {cursor other : Cursor} {trace later : Trace Rule} {found next : Found Rule}
    (hitems : ReadsItems (language.gap false) (body.read call (language.gap false)) cursor trace
      found later)
    {left : List Char} (htwins : Twins before after more left cursor other)
    (hrepeats : Repeats (language.gap false) (language.scan false body) other next) :
    Alongside before after more true (some found, later) (some next) := by
  induction hitems generalizing other left next with
  | @stop cursor trace later hnone =>
      rcases htwins.gap with hlevel | ⟨hpassed, -⟩
      · have hfirst := hbody _ _ trace hlevel
        rw [hnone] at hfirst
        rcases hfirst with hfar | hbeside
        · exact .inl hfar
        · cases hrepeats with
          | stop => exact .inr (.stays htwins)
          | more hsome =>
              rw [hsome] at hbeside
              cases hbeside
      · exact .inr (.passes rfl hpassed)
  | @more cursor trace middle later found others hfound hothers ih =>
      have hahead := ahead_items hcall hothers
      rcases htwins.gap with hlevel | ⟨hpassed, -⟩
      · have hfirst := hbody _ _ trace hlevel
        rw [hfound] at hfirst
        rcases hfirst with hfar | hbeside
        · exact .inl (keeps_items hcall hothers hfar)
        · cases hrepeats with
          | stop hnone =>
              rw [hnone] at hbeside
              cases hbeside with
              | passes _ hpassed => exact .inr (.passes rfl (hpassed.of_ahead hahead))
          | @more _ start _ hsome hrest =>
              rw [hsome] at hbeside
              cases hbeside with
              | stays htwins =>
                  exact (ih htwins hrest).imp_right
                    (@Beside.map _ _ _ _ _ _ found.append start.append (fun _ => rfl) fun _ => rfl)
              | passes _ hpassed => exact .inr (.passes rfl (hpassed.of_ahead hahead))
      · have hall := ahead_items hcall (.more hfound hothers)
        exact .inr (.passes rfl (hpassed.of_ahead hall))

theorem ReadsAlong.star (heats : body.eats Language.eats)
    (hbody : ReadsAlong before after more call true body) :
    ReadsAlong before after more call true (.star body) := by
  intro cursor other trace hlevel
  obtain ⟨found, later, hread, hitems⟩ := exists_read_star (language.gap_moves false)
    (moves_read_of_eats hcall heats) hlevel.settled trace
  obtain ⟨next, hstar⟩ : ∃ next, language.scan false (.star body) other = some next := by
    rw [Grammar.scan, Peg.scan]
    split <;> exact ⟨_, rfl⟩
  have hrepeats := (ranked.scan_star_iff heats hlevel.other_settled).mp hstar
  obtain ⟨head, tail, -, htwins⟩ := hlevel
  rw [hread, hstar]
  exact alongside_items hcall hbody hitems htwins hrepeats

end Read

/-- Whatever is built from joined parts finds the same at level places if its calls do. -/
theorem readsAlong (hseam : Seam before after more) {call : Rule → Reader Rule}
    (hcall : ∀ rule cursor trace, Tracks before after more rule cursor trace
      (call rule cursor trace)) (peg : Peg Rule) (hpeg : peg.steady) :
    ReadsAlong before after more call (!peg.exact) peg := by
  have hheeds := fun rule cursor trace => (hcall rule cursor trace).toHeeds
  induction peg with
  | empty =>
      intro cursor other trace hlevel
      obtain ⟨head, tail, -, htwins⟩ := hlevel
      exact .inr (.stays htwins)
  | word text =>
      intro cursor other trace hlevel
      have hword : ∀ char ∈ text, isBlank char = false ∧ char ≠ '"' := by
        simpa [Peg.steady] using hpeg
      have hbeside := hseam.beside_word hword hlevel
      rw [Grammar.scan_word] at hbeside
      refine .inr ?_
      rw [Peg.read]
      split
      next hfound => rwa [if_pos hfound] at hbeside
      next hfound => rwa [if_neg hfound] at hbeside
  | seq first next ihfirst ihnext =>
      simp only [Peg.steady, Bool.and_eq_true] at hpeg
      obtain ⟨⟨hfirst, hnext⟩, hjoins⟩ := hpeg
      exact .seq hheeds hseam hjoins (ihfirst hfirst) (ihnext hnext).weaken
  | choice first next ihfirst ihnext =>
      obtain ⟨hfirst, hnext⟩ := Bool.and_eq_true_iff.mp hpeg
      exact .choice hheeds (ihfirst hfirst) (ihnext hnext)
  | star body ih =>
      obtain ⟨hbody, heats⟩ := Bool.and_eq_true_iff.mp hpeg
      exact .star hheeds heats (ih hbody).weaken
  | ahead body ih =>
      obtain ⟨hbody, hexact⟩ := Bool.and_eq_true_iff.mp hpeg
      have hahead := ih hbody
      rw [hexact] at hahead
      rw [Peg.exact, hexact]
      exact .ahead hahead
  | enter rule =>
      exact fun cursor other trace hlevel => (hcall rule cursor trace).alongside hpeg other hlevel
  | char _ | notAhead _ _ => cases hpeg

/-! ## Rules -/

theorem Seam.beside_token (hseam : Seam before after more) {rule : Rule} (htoken : isToken rule)
    (hrule : rule.isInner) {cursor other : Cursor} (hlevel : Level before after more cursor other) :
    Beside before after more (!rule.exact) (language.find false rule cursor)
      (language.find false rule other) := by
  cases rule with
  | int => exact hseam.beside_int hlevel
  | str => exact beside_str hlevel
  | bool value =>
      exact hseam.beside_of_lone (by cases value <;> decide) (find_bool value) hlevel
  | printWord => exact hseam.beside_of_lone (by decide) find_printWord hlevel
  | ident => exact hseam.beside_ident hlevel
  | reserved => cases hrule
  | _ => cases htoken

theorem tracks_token (hseam : Seam before after more) {rule : Rule} (htoken : isToken rule)
    (cursor : Cursor) (trace : Trace Rule) :
    Tracks before after more rule cursor trace (language.run false rule cursor trace) where
  toHeeds := heeds_token htoken cursor trace
  alongside hrule other hlevel := by
    refine .inr ?_
    rw [Grammar.run_fst]
    exact hseam.beside_token htoken hrule hlevel

/-- A node around what is found does not change where it stops, and a failure may only be noted
further on. -/
theorem Alongside.conclude {mayPass : Bool} {rule : Rule} {cursor other : Cursor}
    {trace : Trace Rule} {outcome : Outcome Rule}
    (houtcome : Alongside before after more mayPass outcome
      (language.scan (isToken rule) (body rule) other)) :
    Alongside before after more mayPass (Grammar.conclude rule cursor trace outcome)
      (language.find false rule other) := by
  have hmap : Beside before after more mayPass outcome.1
      (language.scan (isToken rule) (body rule) other) →
      Beside before after more mayPass (outcome.1.map (Grammar.enclose rule cursor))
        ((language.scan (isToken rule) (body rule) other).map (Grammar.enclose rule other)) :=
    .map (fun _ => rfl) fun _ => rfl
  rw [find_eq_map]
  rcases outcome with ⟨_ | found, later⟩
  · exact houtcome.imp (fun hfar => Nat.le_trans hfar Trace.le_offset_record.1) hmap
  · exact houtcome.imp_right hmap

theorem tracks_body (hseam : Seam before after more) {call : Rule → Reader Rule}
    (hcall : ∀ rule cursor trace, Tracks before after more rule cursor trace
      (call rule cursor trace))
    {rule : Rule} (htoken : isToken rule = false) (cursor : Cursor) (trace : Trace Rule) :
    Tracks before after more rule cursor trace (Grammar.conclude rule cursor trace
      ((body rule).read call (language.gap false) cursor trace)) where
  toHeeds := heeds_body (fun rule cursor trace => (hcall rule cursor trace).toHeeds) rule cursor
    trace
  alongside hrule other hlevel := by
    have hexact : rule.exact = false := by
      cases rule with
      | str | bool _ | printWord | ident => cases htoken
      | _ => rfl
    have hread := (readsAlong hseam hcall _ (Rule.steady_body hrule htoken)).weaken
    rw [hexact]
    refine .conclude ?_
    rw [htoken]
    exact hread cursor other trace hlevel

/-- Every call tracks the other text. -/
theorem tracks_run (hseam : Seam before after more) (rule : Rule) (cursor : Cursor)
    (trace : Trace Rule) :
    Tracks before after more rule cursor trace (language.run false rule cursor trace) := by
  -- A failure with a note at the cut tracks anything.
  refine @Grammar.Ranked.run_induction_of _ _ ranked (Tracks before after more)
    (fun rule _ trace => (none, ⟨max trace.offset before.length, [rule]⟩)) ?_ ?_ ?_ rule cursor
    trace
  · intro rule cursor trace
    have hfar : before.length ≤ max trace.offset before.length := Nat.le_max_right _ _
    exact ⟨⟨nofun, fun _ => hfar, fun _ => ⟨fun _ _ _ => hfar, nofun⟩⟩, fun _ _ _ => .inl hfar⟩
  · exact fun rule cursor trace htoken => tracks_token hseam htoken cursor trace
  · exact fun call hcall rule cursor trace htoken => tracks_body hseam hcall htoken cursor trace

end PlZero
