import PlZero.Proofs.Entry
import PlZero.Proofs.Explained
import PlZero.Proofs.Grammar.Digits
import PlZero.Proofs.Message

/-! # What is expected could have come

Whatever is noted while a text is read is noted at a place that admits it. So what precedes the
place of an error can be completed to a text that matches, with something there that an expected
rule matches. Integer literals play no part in this, so all digits may be taken for zeros.
-/

namespace PlZero

open Peg PlZero.Language
open Relation (Comp ReflTransGen)

/-! ## Tokens -/

/-- A token that is found is a phrase of its rule. -/
theorem phrase_of_find_token {rule : Rule} {cursor : Cursor} {found : Found Rule}
    (hrule : isToken rule = true) (hinner : rule.isInner) (hzero : ZeroDigits cursor.rest)
    (hfound : language.find false rule cursor = some found) :
    rule.Phrase cursor.rest found.stop.rest := by
  cases rule with
  | int =>
      obtain ⟨digits, rest, hrun, hnil, rfl⟩ := find_int_eq_some_iff.mp hfound
      have hdigits : ZeroDigits digits := fun char hchar =>
        hzero char (hrun.eq_append ▸ List.mem_append_left rest hchar)
      exact ⟨.int 0, .int (integer_of_zeros hdigits hrun hnil)⟩
  | str =>
      obtain ⟨inner, rest, hquote, hrest, rfl⟩ := find_str_eq_some_iff.mp hfound
      refine ⟨.str (.ofList inner), .str ⟨by simpa using hquote, ?_⟩⟩
      rw [hrest]
      simpa [matched] using Skips.refl _
  | bool value =>
      obtain ⟨rest, hrun, rfl⟩ := find_bool_eq_some_iff.mp hfound
      exact ⟨.bool value, .bool ⟨_, .refl _, hrun⟩⟩
  | ident =>
      obtain ⟨name, rest, hname, hrun, rfl⟩ := find_ident_eq_some_iff.mp hfound
      exact ⟨name, hname, _, .refl _, hrun⟩
  | printWord =>
      obtain ⟨rest, hrun, rfl⟩ := find_printWord_eq_some_iff.mp hfound
      exact ⟨_, .refl _, hrun⟩
  | reserved => cases hinner
  | _ => cases hrule

section Run

variable {good : List Char → Prop} {text : List Char}

theorem zeroDigits_of_in (hzero : ZeroDigits text) {cursor : Cursor} (hin : cursor.In text) :
    ZeroDigits cursor.rest := by
  obtain ⟨before, htext, -⟩ := hin.exists_eq_append
  exact fun char hchar => hzero char (htext ▸ List.mem_append_right before hchar)

/-- Inside a token nothing is noted, so only its own failure is. -/
theorem explained_token (hzero : ZeroDigits text) {rule : Rule} (hrule : isToken rule = true)
    (hinner : rule.isInner) : Explained good text rule.Phrase (language.run false rule) := by
  intro cursor trace
  rw [ranked.run_eq_conclude]
  refine Explains.conclude hinner (fun _ _ => id) ⟨?_, ?_, ?_⟩
  · intro found after hread
    refine (read_moves (language.gap_moves _) (ranked.run_moves _) _ _ _ _ _ hread).weaken
      (Nat.zero_le _)
  · intro found after hread hin
    have hfound : language.find false rule cursor = some (Grammar.enclose rule cursor found) := by
      rw [← Grammar.run_fst false rule cursor trace, ranked.run_eq_conclude]
      rw [hread]
      rfl
    have hphrase := phrase_of_find_token hrule hinner (zeroDigits_of_in hzero hin) hfound
    exact ⟨found.stop.rest, hphrase, .refl _⟩
  · intro _ _ _ htrace
    have htoken : language.isToken rule = true := hrule
    have hcall : ∀ rule', Keeps (Trace.Among · (Notable good text)) (language.run true rule') :=
      fun rule' cursor => language.call_true_keeps _ _ rule' cursor
    rw [htoken]
    exact read_keeps hcall _ _ _ htrace

/-- A lone `p` is looked at first and then taken as a sign. -/
theorem explained_printWord {call : Rule → Reader Rule}
    (hcall : Explained good text (LoneWord "p") (call .printWord)) :
    Explained good text (LoneWord "p")
      ((Peg.seq (.ahead (.enter .printWord)) (sign 'p')).read call (language.gap false)) := by
  intro cursor trace
  have hword := hcall cursor trace
  rw [Peg.read, Peg.read, Peg.read]
  generalize call .printWord cursor trace = outcome at hword ⊢
  rcases outcome with ⟨_ | found, after⟩
  · exact hword
  · by_cases hprefix : ['p'].isPrefixOf (language.gap false cursor).rest
    · simp only [sign, Peg.read, hprefix, if_true]
      refine ⟨?_, ?_, hword.notes⟩
      · rintro _ _ ⟨⟩
        exact (language.gap_moves false cursor).trans
          ⟨1, Nat.zero_le _, (List.isPrefixOf_iff_prefix.mp hprefix).length_le, rfl⟩
      · rintro _ _ ⟨⟩ hin
        obtain ⟨rest, hlone, -⟩ := hword.reads found after rfl hin
        have hrun := wholeRun_gap (.refl _) hlone (by decide)
        have hstop : ((language.gap false cursor).advance 1).rest = rest :=
          congrArg Cursor.rest (advance_of_eq_append hrun.eq_append)
        exact ⟨rest, hlone, hstop ▸ .refl _⟩
    · simp only [sign, Peg.read, hprefix]
      exact .nothing hword.notes

/-- Whatever a rule notes may be noted, and what it finds is a phrase of it. -/
theorem explained_run (hzero : ZeroDigits text) {rule : Rule} (hrule : rule.isInner) :
    Explained good text rule.Phrase (language.run false rule) := by
  intro cursor trace
  refine ranked.run_induction (motive := fun rule cursor trace outcome =>
    rule.isInner → Explains good text rule.Phrase cursor trace outcome) ?_ ?_ ?_ rule cursor trace
    hrule
  · exact fun rule cursor trace _ => .silent rule.Phrase cursor trace
  · exact fun rule cursor trace htoken hrule => explained_token hzero htoken hrule cursor trace
  · intro call hcall rule cursor trace htoken hrule
    have hcall : ∀ rule, rule.isInner → Explained good text rule.Phrase (call rule) :=
      fun rule hrule cursor trace => hcall rule cursor trace hrule
    cases hplain : rule.isPlain with
    | true =>
        exact (Explained.read hcall _ (Rule.isPlain_body hplain) cursor trace).conclude hrule
          fun _ _ => Rule.phrase_of_body hplain
    | false =>
        obtain rfl : rule = .print := Rule.eq_print_of_not_isPlain htoken hrule hplain
        have hlead := explained_printWord (hcall .printWord rfl)
        have hexpr : Explained good text (Peg.enter .expr).Phrase
            ((Peg.enter .expr).read call (language.gap false)) := hcall .expr rfl
        have hseq := hlead.seq hexpr (fun _ _ => LoneWord.portable)
          (Peg.slides_phrase (.enter .expr)) fun _ => @Peg.exists_phrase (.enter .expr) rfl _
        have hexplains := hseq cursor trace
        rw [← read_seq_assoc] at hexplains
        refine Explains.conclude hrule ?_ hexplains
        rintro input rest ⟨middle, hword, value, hvalue⟩
        exact ⟨_, .print hword hvalue⟩

end Run

namespace Entry

/-- What a whole text is, apart from the blanks around it. -/
def item : Entry → Peg Rule
  | .program => .star (.enter .stmt)
  | .stmt => .enter .stmt
  | .expr => .enter .expr

theorem body_rule (entry : Entry) :
    body entry.rule = all [.empty, entry.item, .enter .finish] := by
  cases entry <;> rfl

theorem isPlain_item (entry : Entry) : entry.item.isPlain := by
  cases entry <;> rfl

/-- A text matches. -/
def Accepts (entry : Entry) (input : List Char) : Prop :=
  ∃ node, language.match? entry.rule input = .ok node

theorem exists_match_of_parseBy {Tree : Type} {rule : Rule}
    {build : List (Node Rule) → Except TreeError Tree} {source : String} {tree : Tree}
    (hparse : parseBy rule build source = .ok tree) :
    ∃ node, language.match? rule source.toList = .ok node := by
  rw [parseBy] at hparse
  split at hparse
  next => cases hparse
  next node hnode => exact ⟨node, hnode⟩

/-- A phrase with nothing but blanks behind it matches. -/
theorem accepts_of_phrase {entry : Entry} {input : List Char}
    (hphrase : Comp entry.item.Phrase Skips input []) : entry.Accepts input := by
  obtain ⟨source, rfl⟩ : ∃ source : String, source.toList = input := ⟨.ofList input, by simp⟩
  obtain ⟨rest, hphrase, hrest⟩ := hphrase
  cases entry with
  | program =>
      obtain ⟨block, hblock⟩ := exists_block_of_stmts hphrase
      exact exists_match_of_parseBy (Program.parse_eq_ok_iff.mpr ⟨rest, hblock, hrest⟩)
  | stmt =>
      obtain ⟨stmt, hstmt⟩ := hphrase
      exact exists_match_of_parseBy (Stmt.parse_eq_ok_iff.mpr ⟨rest, hstmt, hrest⟩)
  | expr =>
      obtain ⟨value, hvalue⟩ := hphrase
      exact exists_match_of_parseBy (Expr.parse_eq_ok_iff.mpr ⟨rest, hvalue, hrest⟩)

section Text

variable {entry : Entry} {text : List Char}

theorem in_gap_start (text : List Char) : (language.gap false (.start text)).In text :=
  language.gap_moves false (.start text)

/-- Behind the blanks at the start of a text its item is admitted, with nothing behind it. -/
theorem admits_item (entry : Entry) (text : List Char) :
    ∃ before, text = before ++ (language.gap false (.start text)).rest ∧
      before.length = (language.gap false (.start text)).offset ∧
      Admits entry.Accepts [] before (language.gap false (.start text)).rest entry.item.Phrase := by
  obtain ⟨before, htext, hlength⟩ := (in_gap_start text).exists_eq_append
  refine ⟨before, htext, hlength, fun input _ ⟨stop, hphrase, hstop⟩ => ?_⟩
  have hblanks : Skips (before ++ input) input := by
    obtain ⟨blanks, hblanks, heq⟩ := skips_gap (.start text)
    obtain rfl : before = blanks := List.append_cancel_right (htext.symm.trans heq)
    exact ⟨before, hblanks, rfl⟩
  obtain ⟨last, hphrase, hlast⟩ := entry.item.slides_phrase _ _ _ hblanks hphrase
  exact accepts_of_phrase ⟨last, hphrase, hlast.trans hstop⟩

/-- The rule of an entry may only be noted at the start of a text that does not start with a
blank. -/
theorem among_record {after : Trace Rule} {before : Nat}
    (hafter : after.Among (Notable entry.Accepts text))
    (hreached : after.Reached (language.gap false (.start text)).offset) :
    (after.record entry.rule 0 before).Among (Notable entry.Accepts text) := by
  rcases Nat.eq_zero_or_pos after.offset with hzero | hpos
  · have hstart : (language.gap false (.start text)).offset = 0 :=
      Nat.eq_zero_of_le_zero (hzero ▸ hreached.1)
    obtain ⟨blanks, htext, hlength, -⟩ := admits_item entry text
    obtain rfl : blanks = [] := List.eq_nil_of_length_eq_zero (hlength.trans hstart)
    refine hafter.record ⟨[], text, rfl, rfl, ?_, [], entry.rule.sample, [], by simp,
      matches_sample _, fun hfinish => ?_, ?_⟩
    · rw [htext]
      exact head?_of_settled (settled_gap _)
    · cases entry <;> cases hfinish
    · obtain ⟨node, hnode, -⟩ := matches_sample entry.rule
      exact ⟨node, by simpa using hnode⟩
  · rwa [Trace.record_of_lt hpos]

/-- An item that is not there leaves notes at its place or further on. -/
theorem reached_of_item {cursor : Cursor} {trace after : Trace Rule} (hproper : trace.Proper)
    (hread : entry.item.read (language.run false) (language.gap false) cursor trace =
      (none, after)) :
    after.Reached cursor.offset := by
  cases entry with
  | program =>
      rw [item, Peg.read] at hread
      split at hread <;> cases hread
  | stmt => exact ranked.reached_of_run hproper hread
  | expr => exact ranked.reached_of_run hproper hread

/-- Behind an item and blanks the end of the text may be noted, since a text may end there. -/
theorem notable_finish {before : List Char} {cursor stop : Cursor}
    (htext : text = before ++ cursor.rest) (hbefore : before.length = cursor.offset)
    (hadmits : Admits entry.Accepts [] before cursor.rest entry.item.Phrase)
    (hahead : cursor.Ahead 0 stop) (hphrase : Comp entry.item.Phrase Skips cursor.rest stop.rest)
    (hsettled : Settled stop) : Notable entry.Accepts text stop.offset .finish := by
  have hcomp : Admits entry.Accepts [] before cursor.rest (Comp entry.item.Phrase Eq) := by
    refine hadmits.mono ?_
    rintro _ _ ⟨_, hphrase, rfl⟩
    exact hphrase
  obtain ⟨middle, hphrase, hmiddle⟩ := hphrase
  obtain ⟨taken, htaken, hends⟩ := hcomp.behind slides_eq hphrase.portable hmiddle
  refine ⟨before ++ taken, stop.rest, by rw [htext, htaken, List.append_assoc],
    length_append_taken hbefore htaken hahead, head?_of_settled hsettled, [], [], [], by simp,
    matches_sample .finish, fun _ => ⟨rfl, rfl⟩, ?_⟩
  simpa using hends [] (.nil _) ⟨[], rfl, .refl _⟩

theorem run_finish {cursor : Cursor} {trace after : Trace Rule}
    (hread : language.run false .finish cursor trace = (none, after)) :
    after = trace.record .finish cursor.offset (trace.count cursor.offset) := by
  rw [ranked.run_eq_conclude] at hread
  change Grammar.conclude _ _ _ (Peg.finish.read _ _ _ _) = _ at hread
  rw [Peg.finish, Peg.read] at hread
  split at hread <;> cases hread
  rfl

/-- Whatever fails inside an entry fails behind the blanks at the start of the text. -/
theorem among_of_read (hzero : ZeroDigits text) {after : Trace Rule}
    (hread : (all [.empty, entry.item, .enter .finish]).read (language.run false)
      (language.gap false) (.start text) .start = (none, after)) :
    after.Among (Notable entry.Accepts text) ∧
      after.Reached (language.gap false (.start text)).offset := by
  obtain ⟨before, htext, hbefore, hadmits⟩ := admits_item entry text
  have hitem : Explained entry.Accepts text entry.item.Phrase
      (entry.item.read (language.run false) (language.gap false)) :=
    Explained.read (fun rule hrule => explained_run hzero hrule) _ entry.isPlain_item
  have hexplains := hitem (language.gap false (.start text)) .start
  have hnotes := hexplains.notes (in_gap_start text) (settled_gap _)
    ⟨before, [], htext, hbefore, .nil _, hadmits⟩ (Trace.among_start _)
  have hwhole : (Peg.seq entry.item (.enter .finish)).read (language.run false)
      (language.gap false) (language.gap false (.start text)) .start = (none, after) := by
    rcases read_seq_eq_none hread with hempty | ⟨_, _, hempty, hwhole⟩
    · cases hempty
    · cases hempty
      exact hwhole
  rcases read_seq_eq_none hwhole with hfirst | ⟨found, middle, hfirst, hfinish⟩
  · rw [hfirst] at hnotes
    exact ⟨hnotes, reached_of_item Trace.proper_start hfirst⟩
  · -- An item has been read, and something stands behind it.
    rw [hfirst] at hexplains hnotes
    have hproper := (language.read_run_proper _ _ _).of_eq hfirst Trace.proper_start
    have hahead := (hexplains.moves found middle rfl).trans (language.gap_moves false found.stop)
    obtain ⟨stop, hphrase, hstop⟩ := hexplains.reads found middle rfl (in_gap_start text)
    have hnotable := notable_finish htext hbefore hadmits hahead
      ⟨stop, hphrase, hstop.trans (skips_gap found.stop)⟩ (settled_gap found.stop)
    obtain ⟨hle, hnil⟩ := ranked.reached_of_run hproper hfinish
    obtain rfl := run_finish hfinish
    exact ⟨hnotes.record hnotable, Nat.le_trans hahead.offset_le hle, hnil⟩

/-- A text that does not match is rejected with notes that may be made, and with one at least. -/
theorem among_of_match (hzero : ZeroDigits text) {trace : Trace Rule}
    (hmatch : language.match? entry.rule text = .error trace) :
    trace.tried ≠ [] ∧ trace.Among (Notable entry.Accepts text) := by
  have hrule : language.isToken entry.rule = false := by cases entry <;> rfl
  rw [ranked.match?_eq_error_iff, ranked.run_eq_conclude, hrule] at hmatch
  change Grammar.conclude _ _ _ ((body entry.rule).read _ _ _ _) = _ at hmatch
  rw [body_rule] at hmatch
  have hinner := @among_of_read entry text hzero
  generalize (all [.empty, entry.item, .enter .finish]).read (language.run false)
    (language.gap false) (.start text) .start = outcome at hmatch hinner
  rcases outcome with ⟨_ | found, after⟩
  · cases hmatch
    obtain ⟨hamong, hreached⟩ := hinner rfl
    have hproper : after.Proper := fun hnil => absurd hnil hreached.2
    exact ⟨(Trace.record_reached hproper).2, among_record hamong hreached⟩
  · cases hmatch

end Text

variable {entry : Entry}

theorem accepts_map_iff {input : List Char} :
    entry.Accepts (input.map zeroDigit) ↔ entry.Accepts input :=
  blind_zeroDigit.exists_match?_map_iff ranked

/-- What may be noted in a text with zeros for digits may be noted in the text. -/
theorem notable_of_map {text : List Char} {offset : Nat} {rule : Rule}
    (hnotable : Notable entry.Accepts (text.map zeroDigit) offset rule) :
    Notable entry.Accepts text offset rule := by
  obtain ⟨_, _, htext, hoffset, hhead, blanks, run, rest, hblanks, hrun, hfinish, haccepts⟩ :=
    hnotable
  obtain ⟨before, after, rfl, rfl, rfl⟩ := List.map_eq_append_iff.mp htext
  refine ⟨before, after, rfl, by simpa using hoffset, fun char hchar => ?_, blanks, run, rest,
    hblanks, hrun, hfinish, ?_⟩
  · rw [← isBlank_zeroDigit]
    exact hhead _ (by simpa using ⟨char, hchar, rfl⟩)
  · rw [← accepts_map_iff] at haccepts ⊢
    simpa [zeroDigit_comp] using haccepts

theorem notable_of_match {text : List Char} {trace : Trace Rule}
    (hmatch : language.match? entry.rule text = .error trace) :
    trace.tried ≠ [] ∧ trace.Among (Notable entry.Accepts text) := by
  obtain ⟨hnil, hamong⟩ := among_of_match (zeroDigits_map text)
    ((blind_zeroDigit.match?_map_eq_error_iff ranked).mpr hmatch)
  exact ⟨hnil, fun rule hrule => notable_of_map (hamong rule hrule)⟩

theorem not_accepts_iff {input : List Char} :
    ¬ entry.Accepts input ↔ ∃ trace, language.match? entry.rule input = .error trace := by
  rw [Accepts]
  cases language.match? entry.rule input with
  | error trace => exact ⟨fun _ => ⟨trace, rfl⟩, fun _ ⟨_, hnode⟩ => nomatch hnode⟩
  | ok node => exact ⟨fun hnot => absurd ⟨node, rfl⟩ hnot, fun ⟨_, htrace⟩ => nomatch htrace⟩

/-- A text is rejected with an error that lists rules exactly if it does not match. Its message
names at least one rule and no other ones than are listed, and each of them could have come at the
place of the error: what stands before it can be completed to a text that matches, through
something that the rule matches. -/
theorem accepts_expected (entry : Entry) (source : String) :
    (¬ entry.Accepts source.toList ↔ ∃ error expected,
      entry.check source = .error error ∧ error.cause = .unexpected expected) ∧
    ∀ (error : SyntaxError) (expected : List Rule), entry.check source = .error error →
      error.cause = .unexpected expected →
      expected ≠ [] ∧ SyntaxError.NamesRules error.message expected ∧
      ∃ before after, source.toList = before ++ after ∧
        error.offset = Text.byteLength before ∧ (∃ more, entry.Accepts (before ++ more)) ∧
        ∀ rule ∈ expected, Expects entry.Accepts before rule := by
  refine ⟨?_, fun error expected hcheck hcause => ?_⟩
  · rw [not_accepts_iff]
    constructor
    · rintro ⟨trace, hmatch⟩
      exact ⟨_, _, check_eq_error_iff.mpr (.inl ⟨trace, hmatch, rfl⟩), rfl⟩
    · rintro ⟨error, expected, hcheck, hcause⟩
      obtain ⟨trace, hmatch, -⟩ := exists_trace_of_unexpected hcheck hcause
      exact ⟨trace, hmatch⟩
  · obtain ⟨trace, hmatch, rfl⟩ := exists_trace_of_unexpected hcheck hcause
    obtain ⟨hnil, hamong⟩ := notable_of_match hmatch
    obtain rfl : Rule.list.filter (· ∈ trace.tried) = expected :=
      SyntaxError.Cause.unexpected.inj hcause
    obtain ⟨rule, hrule⟩ := List.exists_mem_of_ne_nil _ hnil
    obtain ⟨before, after, htext, hoffset, -, blanks, run, rest, -, -, -, haccepts⟩ :=
      hamong rule hrule
    have hlisted : Rule.list.filter (· ∈ trace.tried) ≠ [] :=
      List.ne_nil_of_mem (List.mem_filter.mpr ⟨rule.mem_list, by simpa using hrule⟩)
    refine ⟨hlisted, SyntaxError.namesRules_of_unexpected hcause hlisted,
      before, after, htext, ?_, ⟨blanks ++ run ++ rest, by simpa using haccepts⟩, ?_⟩
    · rw [SyntaxError.offset, SyntaxError.byteOffset, SyntaxError.ofTrace, htext, ← hoffset,
        List.take_left]
    · intro other hother
      have hnotable := hamong other (by simpa using (List.mem_filter.mp hother).2)
      rw [htext, ← hoffset] at hnotable
      exact hnotable.expects

/-- A name that starts with `else` behind a branch: a block is tried in the middle of it. -/
theorem accepts_expected_elsewhere :
    ∃ error expected,
      Entry.program.check "if (1) \x7b\x7d elsewhere" = .error error ∧
      error.cause = .unexpected expected ∧
      expected ≠ [] ∧ SyntaxError.NamesRules error.message expected ∧
      ∃ before after, "if (1) \x7b\x7d elsewhere".toList = before ++ after ∧
        error.offset = Text.byteLength before ∧
        (∃ more, Entry.program.Accepts (before ++ more)) ∧
        ∀ rule ∈ expected, Expects Entry.program.Accepts before rule := by
  obtain ⟨trace, hmatch⟩ := exists_eq_error_of_isNone (by decide +kernel :
    (language.match? Entry.program.rule "if (1) \x7b\x7d elsewhere".toList).toOption.isNone)
  have hcheck : Entry.program.check "if (1) \x7b\x7d elsewhere" =
      .error (.ofTrace "if (1) \x7b\x7d elsewhere" trace) :=
    check_eq_error_iff.mpr (.inl ⟨trace, hmatch, rfl⟩)
  exact ⟨_, _, hcheck, rfl, (accepts_expected .program _).2 _ _ hcheck rfl⟩

end Entry

end PlZero
