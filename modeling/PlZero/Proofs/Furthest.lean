import PlZero.Proofs.Alongside
import PlZero.Proofs.Expected
import PlZero.Proofs.Text.Position

/-! # How far an error is

If what stands before a place between two tokens can still become a text that matches, then the
error is not reported before this place. The one exception are places at which nothing but a `=` or
a parenthesis that opens can come: no rule stands for these signs, so it is noted nowhere that they
are missing.
-/

namespace PlZero.Entry

open Peg PlZero.Language

variable {entry : Entry} {before after more : List Char}

/-- A text matches if an item of the entry is found in it and nothing but blanks stands behind. -/
theorem accepts_iff {input : List Char} :
    entry.Accepts input ↔
      ∃ inner, language.scan false entry.item (language.gap false (.start input)) = some inner ∧
        Skips inner.stop.rest [] := by
  have htoken : isToken entry.rule = false := by cases entry <;> rfl
  have hwhole := fun found => @scan_whole_eq_some_iff entry.item (.start input) found
  rw [Accepts]
  simp only [Grammar.match?_eq_ok_iff ranked, find_eq_some_iff, htoken, body_rule, hwhole]
  constructor
  · rintro ⟨node, stop, found, ⟨inner, hinner, hnil, rfl⟩, -⟩
    exact ⟨inner, hinner, hnil⟩
  · rintro ⟨inner, hinner, hnil⟩
    exact ⟨_, _, _, ⟨inner, hinner, hnil, rfl⟩, rfl⟩

theorem twins_start (hseam : Seam before after more) :
    Twins before after more before (.start (before ++ after)) (.start (before ++ more)) where
  suffix := List.suffix_refl before
  offset := Nat.zero_add _
  rest := rfl
  other_rest := rfl
  quotes := hseam.quotes

/-- A failure of an entry is noted at the cut or behind it. -/
theorem le_offset_of_read (hseam : Seam before after more)
    (haccepts : entry.Accepts (before ++ more)) {later : Trace Rule}
    (hread : (Peg.seq entry.item (.enter .finish)).read (language.run false) (language.gap false)
      (language.gap false (.start (before ++ after))) .start = (none, later)) :
    before.length ≤ later.offset := by
  have hcall := tracks_run hseam
  rcases (twins_start hseam).gap with hlevel | ⟨hpassed, -⟩
  · obtain ⟨inner, hinner, hnil⟩ := accepts_iff.mp haccepts
    have hitem := readsAlong hseam hcall entry.item (by cases entry <;> rfl) _ _ .start hlevel
    rw [hinner] at hitem
    rcases read_seq_eq_none hread with hfirst | ⟨found, middle, hfirst, hfinish⟩
    · rw [hfirst] at hitem
      rcases hitem with hfar | hbeside
      · exact hfar
      · cases hbeside
    · have htracks := (hcall .finish (language.gap false found.stop) middle).toHeeds
      change language.run false .finish _ _ = _ at hfinish
      rw [hfinish] at htracks
      have hbehind : Passed before.length found.stop → before.length ≤ later.offset :=
        fun hpassed => (htracks.announces (settled_gap found.stop)).tells rfl hpassed rfl
      rw [hfirst] at hitem
      rcases hitem with hfar | hbeside
      · exact htracks.keeps hfar
      · cases hbeside with
        | stays htwins =>
            -- The other text has nothing but blanks behind the item, so the cut is passed.
            rcases htwins.gap with ⟨head, tail, hhead, hlevel⟩ | ⟨hpassed, -⟩
            · have hrest := hlevel.other_rest
              rw [rest_gap, Skips.nil_iff.mp hnil] at hrest
              cases hrest
            · exact hbehind hpassed
        | passes _ hpassed => exact hbehind hpassed
  · have htells : (Peg.seq entry.item (.enter .finish)).tells := by cases entry <;> rfl
    have hannounces := announces_read (fun rule cursor trace => (hcall rule cursor trace).toHeeds)
      (.seq entry.item (.enter .finish)) (settled_gap (.start (before ++ after))) .start
    rw [hread] at hannounces
    exact hannounces.tells htells hpassed rfl

/-- A text that does not match is rejected at the cut or behind it. -/
theorem le_offset_of_match (hseam : Seam before after more)
    (haccepts : entry.Accepts (before ++ more)) {trace : Trace Rule}
    (hmatch : language.match? entry.rule (before ++ after) = .error trace) :
    before.length ≤ trace.offset := by
  have htoken : language.isToken entry.rule = false := by cases entry <;> rfl
  rw [ranked.match?_eq_error_iff, ranked.run_eq_conclude, htoken] at hmatch
  change Grammar.conclude _ _ _ ((body entry.rule).read _ _ _ _) = _ at hmatch
  rw [body_rule] at hmatch
  generalize hread : (all [.empty, entry.item, .enter .finish]).read (language.run false)
    (language.gap false) (.start (before ++ after)) .start = outcome at hmatch
  rcases outcome with ⟨_ | found, later⟩
  · cases hmatch
    rcases read_seq_eq_none hread with hempty | ⟨_, _, hempty, hwhole⟩
    · cases hempty
    · cases hempty
      exact Nat.le_trans (le_offset_of_read hseam haccepts hwhole) Trace.le_offset_record.1
  · cases hmatch

/-- No error is reported before a place between two tokens up to which the text can still match,
unless the only tokens that can come there are a `=` or a parenthesis that opens. -/
theorem byteLength_le_offset (entry : Entry) (source : String) (error : SyntaxError)
    (expected : List Rule) (hcheck : entry.check source = .error error)
    (hcause : error.cause = .unexpected expected) (before after more : List Char)
    (hsource : source.toList = before ++ after) (hseam : Seam before after more)
    (haccepts : entry.Accepts (before ++ more)) :
    Text.byteLength before ≤ error.offset := by
  obtain ⟨trace, hmatch, rfl⟩ := exists_trace_of_unexpected hcheck hcause
  rw [hsource] at hmatch
  have hle := le_offset_of_match hseam haccepts hmatch
  rw [SyntaxError.offset, SyntaxError.byteOffset, SyntaxError.ofTrace, hsource, List.take_append,
    List.take_of_length_le hle, Text.byteLength_append]
  exact Nat.le_add_right _ _

/-- A parenthesis that closes a condition is missing, and so it is said where it is. -/
theorem byteLength_le_offset_missing_parenthesis :
    ∃ error expected,
      Entry.program.check "if (a < 1 \x7b p 2 \x7d" = .error error ∧
      error.cause = .unexpected expected ∧
      Seam "if (a < 1 ".toList "\x7b p 2 \x7d".toList " ) \x7b\x7d".toList ∧
      Entry.program.Accepts ("if (a < 1 ".toList ++ " ) \x7b\x7d".toList) ∧
      Text.byteLength "if (a < 1 ".toList ≤ error.offset := by
  obtain ⟨trace, hmatch⟩ := exists_eq_error_of_isNone (by decide +kernel :
    (language.match? Entry.program.rule "if (a < 1 \x7b p 2 \x7d".toList).toOption.isNone)
  have hcheck : Entry.program.check "if (a < 1 \x7b p 2 \x7d" =
      .error (.ofTrace "if (a < 1 \x7b p 2 \x7d" trace) :=
    check_eq_error_iff.mpr (.inl ⟨trace, hmatch, rfl⟩)
  have hseam : Seam "if (a < 1 ".toList "\x7b p 2 \x7d".toList " ) \x7b\x7d".toList :=
    { quotes := by decide
      words := fun _ _ _ _ _ _ hchar => Option.some_inj.mp hchar ▸ by decide
      blank := fun _ hchar => Option.some_inj.mp hchar ▸ by decide
      avoids := fun _ hchar => Option.some_inj.mp hchar ▸ by decide }
  have haccepts : Entry.program.Accepts ("if (a < 1 ".toList ++ " ) \x7b\x7d".toList) :=
    exists_eq_ok_of_isSome (by decide +kernel)
  exact ⟨_, _, hcheck, rfl, hseam, haccepts,
    byteLength_le_offset .program _ _ _ hcheck rfl _ _ _ rfl hseam haccepts⟩

/-! ## Signs that are not noted -/

/-- A name starts no statement unless a `=` comes next. -/
theorem find_stmt_eq_none_of_name {name : String} {cursor : Cursor} {rest : List Char}
    (hname : Name name cursor.rest rest) (havoids : Avoids ['='] rest) :
    language.find false .stmt cursor = none := by
  obtain ⟨hisName, hword⟩ := hname
  obtain ⟨head, tail, hcons, -⟩ := hisName.exists_eq_cons
  have hnil : name.toList ≠ [] := by simp [hcons]
  have hkeyword : ∀ word ∈ keywords, name ≠ word := by
    rintro word hmem rfl
    exact hisName.2 hmem
  have hassign : language.find false .assign cursor = none := by
    refine Option.eq_none_iff_forall_ne_some.mpr fun found hfound => ?_
    obtain ⟨_, hscan, -⟩ := find_eq_some_iff.mp hfound
    obtain ⟨first, _, hfirst, hothers, -⟩ := scan_seq_eq_some_iff.mp hscan
    obtain ⟨other, middle, hother, hrun, rfl⟩ := find_ident_eq_some_iff.mp hfirst
    obtain ⟨second, _, hsecond, -⟩ := scan_seq_eq_some_iff.mp hothers
    obtain ⟨start, hsign, -⟩ := scan_word_eq_some_iff.mp hsecond
    have hother' : LoneWord other cursor.rest middle := ⟨_, .refl _, hrun⟩
    obtain ⟨head', tail', hcons', -⟩ := hother.exists_eq_cons
    obtain rfl : name = other := LoneWord.unique hword hother' hnil (by simp [hcons'])
    obtain rfl : rest = middle := LoneWord.rest_unique hword hother' hnil
    have hequals : Symbol "=" rest start := @symbol_of_rest_gap _ ⟨_, _⟩ _ hsign
    exact havoids '=' (hequals.nextChar?_eq (by decide)) (by decide)
  rw [find_eq_map]
  have hscan : language.scan (isToken .stmt) (body .stmt) cursor = Stmt.form cursor :=
    Stmt.scan_stmt cursor
  rw [hscan, Stmt.form, Stmt.find_branch_eq_none hword hnil (hkeyword _ (by decide)),
    Stmt.find_loop_eq_none hword hnil (hkeyword _ (by decide)),
    Stmt.find_print_eq_none hword hnil (hkeyword _ (by decide)), hassign]
  rfl

/-- A program does not start with a name that has anything but a `=` behind it. -/
theorem not_accepts_of_name {name : String} {input rest : List Char}
    (hname : Name name input rest) (havoids : Avoids ['='] rest) :
    ¬ Entry.program.Accepts input := by
  intro haccepts
  obtain ⟨inner, hinner, hnil⟩ := accepts_iff.mp haccepts
  obtain ⟨hisName, hword⟩ := hname
  obtain ⟨head, tail, hcons, halpha⟩ := hisName.exists_eq_cons
  have hrun := @wholeRun_gap name (.start input) input rest (.refl _) hword (by simp [hcons])
  have hnone : language.scan false (.enter .stmt) (language.gap false (.start input)) = none :=
    find_stmt_eq_none_of_name ⟨hisName, _, .refl _, hrun⟩ havoids
  have hstar := (ranked.scan_star_iff rfl (settled_gap (.start input))).mp hinner
  cases hstar with
  | stop =>
      rw [hrun.eq_append, hcons, Skips.nil_iff] at hnil
      simp [isBlank_eq_false_of_isAlphanum (isAlphanum_of_isAlpha halpha)] at hnil
  | more hsome =>
      rw [settled_gap (.start input), hnone] at hsome
      cases hsome

/-- Behind a name nothing but a `=` can come, and where it is missing the error is reported at the
name. -/
theorem offset_lt_byteLength_missing_sign :
    ∃ error expected,
      Entry.program.check "x 1" = .error error ∧ error.cause = .unexpected expected ∧
      Entry.program.Accepts ("x ".toList ++ "= 1".toList) ∧
      (∀ more, ¬ Entry.program.Accepts ("x 1".toList ++ more)) ∧
      error.offset < Text.byteLength "x ".toList := by
  obtain ⟨trace, hmatch⟩ := exists_eq_error_of_isNone (by decide +kernel :
    (language.match? Entry.program.rule "x 1".toList).toOption.isNone)
  have hplace : Except.casesOn (motive := fun _ => Nat)
      (language.match? Entry.program.rule "x 1".toList) Trace.offset (fun _ => 1) = 0 := by
    decide +kernel
  rw [hmatch] at hplace
  have hstuck : ∀ more, ¬ Entry.program.Accepts ("x 1".toList ++ more) := by
    intro more
    have htext : "x 1".toList ++ more = 'x' :: ' ' :: '1' :: more := rfl
    have hname : Name "x" ('x' :: ' ' :: '1' :: more) (' ' :: '1' :: more) :=
      ⟨⟨⟨'x', [], rfl, by decide, List.forall_mem_nil _⟩, by decide⟩, _, .refl _,
        .single (by decide) fun char hchar => Option.some_inj.mp hchar ▸ by decide⟩
    rw [htext]
    refine not_accepts_of_name hname ?_
    intro char hchar
    obtain rfl : '1' = char := by simpa [nextChar?, isBlank] using hchar
    decide
  refine ⟨_, _, check_eq_error_iff.mpr (.inl ⟨trace, hmatch, rfl⟩), rfl,
    exists_eq_ok_of_isSome (by decide +kernel), hstuck, ?_⟩
  simp only [SyntaxError.offset, SyntaxError.byteOffset, SyntaxError.ofTrace, hplace]
  decide

end PlZero.Entry
