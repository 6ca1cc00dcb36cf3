import PlZero.Proofs.Grammar.Tokens

/-! # Tokens of readings and tokens of phrases

A rule of a token or a sign finds something exactly where the text starts with such a token. What
it leaves is fixed by the characters it covers and by those behind them. Where a phrase has a
token behind blanks, the place behind the gap starts with the token.
-/

namespace PlZero.Language

open Peg

/-- What a rule leaves that covers `run`, with `rest` behind it. -/
def matched (rule : Rule) (offset : Nat) (run rest : List Char) : Found Rule :=
  ⟨[⟨rule, offset, run, []⟩], ⟨offset + run.length, rest⟩⟩

theorem advance_of_eq_append {cursor : Cursor} {run rest : List Char}
    (heq : cursor.rest = run ++ rest) :
    cursor.advance run.length = ⟨cursor.offset + run.length, rest⟩ := by
  rw [Cursor.advance, heq, List.drop_left]

theorem leaf_of_eq_append {rule : Rule} {cursor : Cursor} {run rest : List Char}
    (heq : cursor.rest = run ++ rest) :
    leaf rule cursor run.length = matched rule cursor.offset run rest := by
  rw [leaf, advance_of_eq_append heq, heq, List.take_left, matched]

theorem scan_word_eq_some_iff {inToken : Bool} {text : List Char} {cursor : Cursor}
    {found : Found Rule} :
    language.scan inToken (.word text) cursor = some found ↔
      ∃ rest, cursor.rest = text ++ rest ∧ found = ⟨[], ⟨cursor.offset + text.length, rest⟩⟩ := by
  rw [Grammar.scan_word, Option.ite_none_right_eq_some, Option.some_inj,
    List.isPrefixOf_iff_prefix]
  constructor
  · rintro ⟨⟨rest, hrest⟩, rfl⟩
    exact ⟨rest, hrest.symm, by rw [advance_of_eq_append hrest.symm]⟩
  · rintro ⟨rest, hrest, rfl⟩
    exact ⟨⟨rest, hrest.symm⟩, by rw [advance_of_eq_append hrest]⟩

/-- A rule that stands for one word finds it where the text starts with it. -/
theorem find_eq_some_iff_of_body_eq_word {rule : Rule} {text : List Char}
    (hbody : body rule = .word text) {cursor : Cursor} {found : Found Rule} :
    language.find false rule cursor = some found ↔
      ∃ rest, cursor.rest = text ++ rest ∧ found = matched rule cursor.offset text rest := by
  rw [find_of_body_eq_word hbody, Option.ite_none_right_eq_some, Option.some_inj,
    List.isPrefixOf_iff_prefix]
  constructor
  · rintro ⟨⟨rest, hrest⟩, rfl⟩
    exact ⟨rest, hrest.symm, leaf_of_eq_append hrest.symm⟩
  · rintro ⟨rest, hrest, rfl⟩
    exact ⟨⟨rest, hrest.symm⟩, leaf_of_eq_append hrest⟩

/-- A rule that takes a whole run, if the run is of some kind, finds it where there is one. -/
theorem find_eq_some_iff_of_run {rule : Rule} {cursor : Cursor} {accepts : Char → Bool}
    {kind : List Char → Prop} [DecidablePred kind]
    (hfind : language.find false rule cursor =
      if kind (cursor.rest.takeWhile accepts) then
        some (leaf rule cursor (cursor.rest.takeWhile accepts).length) else none)
    {found : Found Rule} :
    language.find false rule cursor = some found ↔
      ∃ run rest, WholeRun accepts cursor.rest run rest ∧ kind run ∧
        found = matched rule cursor.offset run rest := by
  rw [hfind, Option.ite_none_right_eq_some, Option.some_inj]
  constructor
  · rintro ⟨hkind, rfl⟩
    have hrun := wholeRun_takeWhile accepts cursor.rest
    exact ⟨_, _, hrun, hkind, leaf_of_eq_append hrun.eq_append⟩
  · rintro ⟨run, rest, hrun, hkind, rfl⟩
    rw [hrun.takeWhile_eq]
    exact ⟨hkind, leaf_of_eq_append hrun.eq_append⟩

theorem find_int_eq_some_iff {cursor : Cursor} {found : Found Rule} :
    language.find false .int cursor = some found ↔
      ∃ digits rest, WholeRun Char.isDigit cursor.rest digits rest ∧ digits ≠ [] ∧
        found = matched .int cursor.offset digits rest :=
  find_eq_some_iff_of_run (find_int cursor)

/-- A rule of one word finds it where it is a whole run of letters and digits. -/
theorem find_eq_some_iff_of_word {rule : Rule} {cursor : Cursor} {word : List Char}
    (hfind : language.find false rule cursor =
      if cursor.rest.takeWhile isWordChar = word then some (leaf rule cursor word.length) else none)
    {found : Found Rule} :
    language.find false rule cursor = some found ↔
      ∃ rest, WholeRun Char.isAlphanum cursor.rest word rest ∧
        found = matched rule cursor.offset word rest := by
  rw [hfind, Option.ite_none_right_eq_some, Option.some_inj]
  constructor
  · rintro ⟨heq, rfl⟩
    have hrun := wholeRun_takeWhile isWordChar cursor.rest
    rw [heq] at hrun
    exact ⟨_, hrun, leaf_of_eq_append hrun.eq_append⟩
  · rintro ⟨rest, hrun, rfl⟩
    exact ⟨hrun.takeWhile_eq, leaf_of_eq_append hrun.eq_append⟩

theorem find_bool_eq_some_iff {value : Bool} {cursor : Cursor} {found : Found Rule} :
    language.find false (.bool value) cursor = some found ↔
      ∃ rest, WholeRun Char.isAlphanum cursor.rest (boolText value).toList rest ∧
        found = matched (.bool value) cursor.offset (boolText value).toList rest :=
  find_eq_some_iff_of_word (find_bool value cursor)

theorem find_printWord_eq_some_iff {cursor : Cursor} {found : Found Rule} :
    language.find false .printWord cursor = some found ↔
      ∃ rest, WholeRun Char.isAlphanum cursor.rest "p".toList rest ∧
        found = matched .printWord cursor.offset "p".toList rest :=
  find_eq_some_iff_of_word (find_printWord cursor)

/-- The reserved words are the keywords. -/
theorem mem_reservedWords_iff {name : String} :
    name.toList ∈ reservedWords ↔ name ∈ keywords := by
  have hmap : reservedWords = keywords.map String.toList := by decide
  rw [hmap, List.mem_map]
  constructor
  · rintro ⟨other, hmem, heq⟩
    exact String.toList_inj.mp heq ▸ hmem
  · exact fun hmem => ⟨name, hmem, rfl⟩

theorem find_ident_eq_some_iff {cursor : Cursor} {found : Found Rule} :
    language.find false .ident cursor = some found ↔
      ∃ name rest, IsName name ∧ WholeRun Char.isAlphanum cursor.rest name.toList rest ∧
        found = matched .ident cursor.offset name.toList rest := by
  rw [find_ident, Option.ite_none_right_eq_some, Option.some_inj]
  constructor
  · rintro ⟨⟨halpha, hreserved⟩, rfl⟩
    have hrun := wholeRun_takeWhile isWordChar cursor.rest
    obtain ⟨name, hname⟩ : ∃ name : String, name.toList = cursor.rest.takeWhile isWordChar :=
      ⟨.ofList _, String.toList_ofList⟩
    obtain ⟨head, halpha, hhead⟩ := Option.any_eq_true _ _ |>.mp halpha
    obtain ⟨tail, hrest⟩ := List.head?_eq_some_iff.mp halpha
    rw [← hname] at hrun hreserved ⊢
    refine ⟨name, _, ⟨⟨head, tail.takeWhile isWordChar, ?_, hhead, ?_⟩, ?_⟩, hrun,
      leaf_of_eq_append hrun.eq_append⟩
    · rw [hname, hrest, List.takeWhile_cons_of_pos (isWordChar_of_isAlpha hhead)]
    · exact List.all_eq_true.mp List.all_takeWhile
    · rwa [← mem_reservedWords_iff]
  · rintro ⟨name, rest, ⟨⟨head, tail, hname, halpha, -⟩, hkeyword⟩, hrun, rfl⟩
    have htake : cursor.rest.takeWhile isWordChar = name.toList := hrun.takeWhile_eq
    rw [htake, mem_reservedWords_iff, hrun.eq_append, hname]
    refine ⟨⟨by simpa using halpha, hkeyword⟩, ?_⟩
    rw [← hname]
    exact leaf_of_eq_append hrun.eq_append

theorem find_str_eq_some_iff {cursor : Cursor} {found : Found Rule} :
    language.find false .str cursor = some found ↔
      ∃ text rest, '"' ∉ text ∧ cursor.rest = ('"' :: text ++ ['"']) ++ rest ∧
        found = matched .str cursor.offset ('"' :: text ++ ['"']) rest := by
  rw [find_str, Option.ite_none_right_eq_some, Option.some_inj, List.head?_eq_some_iff]
  -- Up to the next quote means up to the quote that was put behind a text without any.
  have hclosed : ∀ text rest : List Char, '"' ∉ text →
      (text ++ '"' :: rest).takeWhile (· ≠ '"') = text := by
    intro text rest hnot
    rw [List.takeWhile_append_of_pos]
    · simp
    · intro char hchar
      have hne : char ≠ '"' := fun heq => hnot (heq ▸ hchar)
      simpa using hne
  constructor
  · rintro ⟨⟨⟨tail, hrest⟩, hmem⟩, rfl⟩
    rw [hrest, List.tail_cons] at hmem ⊢
    obtain ⟨text, rest, rfl, hnot⟩ := List.eq_append_cons_of_mem hmem
    have heq : cursor.rest = ('"' :: text ++ ['"']) ++ rest := by simp [hrest]
    refine ⟨text, rest, hnot, by simp, ?_⟩
    rw [hclosed text rest hnot, ← leaf_of_eq_append heq]
    simp
  · rintro ⟨text, rest, hnot, hrest, rfl⟩
    have heq : cursor.rest = '"' :: (text ++ '"' :: rest) := by simp [hrest]
    refine ⟨⟨⟨_, heq⟩, by simp [heq]⟩, ?_⟩
    rw [heq, List.tail_cons, hclosed text rest hnot, ← leaf_of_eq_append hrest]
    simp

/-! ## Operators -/

theorem find_compare_eq_some_iff {op : CompareOp} {cursor : Cursor} {found : Found Rule} :
    language.find false (.compare op) cursor = some found ↔
      ∃ rest, cursor.rest = op.symbol.toList ++ rest ∧
        found = matched (.compare op) cursor.offset op.symbol.toList rest := by
  cases op <;> exact find_eq_some_iff_of_body_eq_word rfl

theorem find_arith_eq_some_iff {op : ArithOp} {cursor : Cursor} {found : Found Rule} :
    language.find false (.arith op) cursor = some found ↔
      ∃ rest, cursor.rest = op.symbol.toList ++ rest ∧
        found = matched (.arith op) cursor.offset op.symbol.toList rest := by
  cases op <;> exact find_eq_some_iff_of_body_eq_word rfl

theorem find_negation_eq_some_iff {cursor : Cursor} {found : Found Rule} :
    language.find false .negation cursor = some found ↔
      ∃ rest, cursor.rest = "!".toList ++ rest ∧
        found = matched .negation cursor.offset "!".toList rest :=
  find_eq_some_iff_of_body_eq_word rfl

/-- An ordered choice of operators finds the one whose sign the text starts with. -/
theorem scan_arithmetic_eq_some_iff {cursor : Cursor} {found : Found Rule} :
    language.scan false arithmetic cursor = some found ↔
      ∃ op rest, cursor.rest = (ArithOp.symbol op).toList ++ rest ∧
        found = matched (.arith op) cursor.offset op.symbol.toList rest := by
  have hchoice : language.scan false arithmetic cursor =
      (language.find false (.arith .add) cursor).or
        ((language.find false (.arith .sub) cursor).or
          ((language.find false (.arith .mul) cursor).or
            ((language.find false (.arith .div) cursor).or
              (language.find false (.arith .rem) cursor)))) := rfl
  constructor
  · intro hfound
    simp only [hchoice, Option.or_eq_some_iff, find_arith_eq_some_iff] at hfound
    obtain hfound | ⟨-, hfound | ⟨-, hfound | ⟨-, hfound | ⟨-, hfound⟩⟩⟩⟩ := hfound <;>
      exact ⟨_, hfound⟩
  · rintro ⟨op, rest, hrest, rfl⟩
    have hop := find_arith_eq_some_iff.mpr ⟨rest, hrest, rfl⟩
    -- The signs differ in their only characters, so the order of the choice does not matter.
    have hother : ∀ other : ArithOp, other ≠ op →
        language.find false (.arith other) cursor = none := by
      intro other hne
      refine Option.eq_none_iff_forall_ne_some.mpr fun found hfound => ?_
      obtain ⟨rest', hrest', -⟩ := find_arith_eq_some_iff.mp hfound
      rw [hrest] at hrest'
      cases op <;> cases other <;> simp_all [ArithOp.symbol]
    cases op <;> simp [hchoice, hop, hother]

/-- Two signs have a common start only if one of them is the other one with `=` behind it. -/
theorem find_compare_eq_none {op other : CompareOp} {cursor : Cursor} {rest : List Char}
    (hrest : cursor.rest = op.symbol.toList ++ rest) (hne : other ≠ op)
    (hlonger : op ∈ [CompareOp.lt, .gt] → rest.head? ≠ some '=')
    (hshorter : op ∈ [CompareOp.le, .ge] → other ∉ [CompareOp.lt, .gt]) :
    language.find false (.compare other) cursor = none := by
  refine Option.eq_none_iff_forall_ne_some.mpr fun found hfound => ?_
  obtain ⟨rest', hrest', -⟩ := find_compare_eq_some_iff.mp hfound
  rw [hrest] at hrest'
  cases op <;> cases other <;> simp_all [CompareOp.symbol]

/-- Of two comparisons with a common start the longer one is found. -/
theorem scan_comparison_eq_some_iff {cursor : Cursor} {found : Found Rule} :
    language.scan false comparison cursor = some found ↔
      ∃ op rest, cursor.rest = (CompareOp.symbol op).toList ++ rest ∧
        (op ∈ [CompareOp.lt, .gt] → rest.head? ≠ some '=') ∧
        found = matched (.compare op) cursor.offset op.symbol.toList rest := by
  have hchoice : language.scan false comparison cursor =
      (language.find false (.compare .le) cursor).or
        ((language.find false (.compare .ge) cursor).or
          ((language.find false (.compare .eq) cursor).or
            ((language.find false (.compare .lt) cursor).or
              (language.find false (.compare .gt) cursor)))) := rfl
  constructor
  · intro hfound
    simp only [hchoice, Option.or_eq_some_iff, find_compare_eq_some_iff] at hfound
    obtain hfound | ⟨hle, hfound | ⟨hge, hfound | ⟨-, hfound | ⟨-, hfound⟩⟩⟩⟩ := hfound
    · obtain ⟨rest, hrest, rfl⟩ := hfound
      exact ⟨.le, rest, hrest, by simp, rfl⟩
    · obtain ⟨rest, hrest, rfl⟩ := hfound
      exact ⟨.ge, rest, hrest, by simp, rfl⟩
    · obtain ⟨rest, hrest, rfl⟩ := hfound
      exact ⟨.eq, rest, hrest, by simp, rfl⟩
    · -- Behind this sign stands no `=`, or the longer one would have been found before.
      obtain ⟨rest, hrest, rfl⟩ := hfound
      refine ⟨.lt, rest, hrest, fun _ hhead => ?_, rfl⟩
      obtain ⟨tail, rfl⟩ := List.head?_eq_some_iff.mp hhead
      rw [find_compare_eq_some_iff.mpr ⟨tail, hrest, rfl⟩] at hle
      cases hle
    · obtain ⟨rest, hrest, rfl⟩ := hfound
      refine ⟨.gt, rest, hrest, fun _ hhead => ?_, rfl⟩
      obtain ⟨tail, rfl⟩ := List.head?_eq_some_iff.mp hhead
      rw [find_compare_eq_some_iff.mpr ⟨tail, hrest, rfl⟩] at hge
      cases hge
  · rintro ⟨op, rest, hrest, hlonger, rfl⟩
    have hop := find_compare_eq_some_iff.mpr ⟨rest, hrest, rfl⟩
    have hother := fun other hne =>
      @find_compare_eq_none op other cursor rest hrest hne hlonger
    cases op <;> simp [hchoice, hop, hother]

/-! ## Operands -/

theorem scan_operand (cursor : Cursor) :
    language.scan false operand cursor =
      (language.find false .int cursor).or
        ((language.find false .str cursor).or
          ((language.find false (.bool true) cursor).or
            ((language.find false (.bool false) cursor).or
              ((language.find false .ident cursor).or
                (language.scan false (all [sign '(', .enter .expr, sign ')']) cursor))))) := rfl

section OtherStart

variable {cursor : Cursor} {head : Char} {tail : List Char} (hrest : cursor.rest = head :: tail)

include hrest

theorem find_int_eq_none (hhead : head.isDigit = false) :
    language.find false .int cursor = none := by
  rw [find_int, hrest, List.takeWhile_cons_of_neg (by simp [hhead])]
  rfl

theorem find_str_eq_none (hhead : head ≠ '"') : language.find false .str cursor = none := by
  rw [find_str, hrest, if_neg]
  simp [hhead]

theorem find_ident_eq_none (hhead : head.isAlpha = false) :
    language.find false .ident cursor = none := by
  rw [find_ident, hrest, if_neg]
  simp [hhead]

end OtherStart

theorem find_bool_eq_none {value : Bool} {cursor : Cursor} {run rest : List Char}
    (hrun : WholeRun Char.isAlphanum cursor.rest run rest)
    (hother : run ≠ (boolText value).toList) : language.find false (.bool value) cursor = none := by
  have htake : cursor.rest.takeWhile isWordChar = run := hrun.takeWhile_eq
  rw [find_bool, htake, if_neg hother]

/-! ## Sequences and gaps -/

theorem scan_seq_eq_some_iff {inToken : Bool} {first next : Peg Rule} {cursor : Cursor}
    {found : Found Rule} :
    language.scan inToken (.seq first next) cursor = some found ↔
      ∃ start others, language.scan inToken first cursor = some start ∧
        language.scan inToken next (language.gap inToken start.stop) = some others ∧
        found = start.append others := by
  simp only [Grammar.scan_seq, Option.bind_eq_some_iff, Option.map_eq_some_iff, exists_and_left]
  simp only [eq_comm]

theorem scan_seq_of {inToken : Bool} {first next : Peg Rule} {cursor : Cursor}
    {start others : Found Rule} (hstart : language.scan inToken first cursor = some start)
    (hothers : language.scan inToken next (language.gap inToken start.stop) = some others) :
    language.scan inToken (.seq first next) cursor = some (start.append others) :=
  scan_seq_eq_some_iff.mpr ⟨start, others, hstart, hothers, rfl⟩

theorem find_eq_some_iff {rule : Rule} {cursor : Cursor} {found : Found Rule} :
    language.find false rule cursor = some found ↔
      ∃ inner, language.scan (isToken rule) (body rule) cursor = some inner ∧
        found = Grammar.enclose rule cursor inner := by
  rw [find_eq_map, Option.map_eq_some_iff]
  simp only [eq_comm]

/-- No blanks stand at a place. -/
def Settled (cursor : Cursor) : Prop := language.gap false cursor = cursor

theorem settled_gap (cursor : Cursor) : Settled (language.gap false cursor) := by
  have hnone : (language.gap false cursor).rest.takeWhile isBlank = [] := by
    have hhead := List.head?_dropWhile_not isBlank cursor.rest
    rw [rest_gap]
    cases hrest : cursor.rest.dropWhile isBlank with
    | nil => rfl
    | cons head rest => simp_all
  change Cursor.advance _ (List.takeWhile isBlank _).length = _
  rw [hnone]
  rfl

theorem skips_gap (cursor : Cursor) : Skips cursor.rest (language.gap false cursor).rest :=
  rest_gap cursor ▸ Skips.dropWhile cursor.rest

theorem length_gap_le (cursor : Cursor) :
    (language.gap false cursor).rest.length ≤ cursor.rest.length :=
  (skips_gap cursor).length_le

theorem symbol_of_rest_gap {text : String} {cursor : Cursor} {rest : List Char}
    (hrest : (language.gap false cursor).rest = text.toList ++ rest) :
    Symbol text cursor.rest rest := by
  rw [Symbol, ← hrest]
  exact skips_gap cursor

theorem length_le_of_scan {inToken : Bool} {peg : Peg Rule} {cursor : Cursor}
    {found : Found Rule} (hfound : language.scan inToken peg cursor = some found) :
    found.stop.rest.length ≤ cursor.rest.length :=
  Nat.le_of_add_right_le (ranked.scan_moves hfound).length_le

theorem length_le_of_scan_gap {peg : Peg Rule} {cursor : Cursor} {found : Found Rule}
    (hfound : language.scan false peg (language.gap false cursor) = some found) :
    found.stop.rest.length ≤ cursor.rest.length :=
  Nat.le_trans (length_le_of_scan hfound) (length_gap_le cursor)

/-- Where a reading has stopped in front of a sign, the sign stands behind the gap. -/
theorem rest_gap_of_symbol {text : String} {cursor : Cursor} {before rest : List Char}
    (hskips : Skips before cursor.rest) (hsymbol : Symbol text before rest)
    (hhead : text.toList.head?.any (! isBlank ·)) :
    (language.gap false cursor).rest = text.toList ++ rest := by
  rw [rest_gap, ← hskips.dropWhile_eq, hsymbol.dropWhile_eq hhead]

/-- A sign that is avoided is not found behind the blanks. -/
theorem rest_gap_ne {signs next : List Char} {text : String} {cursor : Cursor}
    (havoids : Avoids signs cursor.rest) (hhead : text.toList.head?.any signs.contains) :
    (language.gap false cursor).rest ≠ text.toList ++ next := by
  intro hrest
  obtain ⟨head, htext, hmem⟩ := Option.any_eq_true _ _ |>.mp hhead
  obtain ⟨tail, htail⟩ := List.head?_eq_some_iff.mp htext
  refine havoids head ?_ (List.contains_iff_mem.mp hmem)
  rw [nextChar?, ← rest_gap, hrest, htail]
  rfl

/-- A lone word is the run of letters and digits behind the blanks. -/
theorem wholeRun_gap {word : String} {cursor : Cursor} {before rest : List Char}
    (hskips : Skips before cursor.rest) (hword : LoneWord word before rest)
    (hnil : word.toList ≠ []) :
    WholeRun Char.isAlphanum (language.gap false cursor).rest word.toList rest := by
  rw [rest_gap, ← hskips.dropWhile_eq]
  exact hword.wholeRun hnil

theorem exists_scan_word {text : String} {cursor : Cursor} {before rest : List Char}
    (hskips : Skips before cursor.rest) (hsymbol : Symbol text before rest)
    (hhead : text.toList.head?.any (! isBlank ·)) :
    ∃ offset, language.scan false (.word text.toList) (language.gap false cursor) =
      some ⟨[], ⟨offset, rest⟩⟩ :=
  ⟨_, scan_word_eq_some_iff.mpr ⟨rest, rest_gap_of_symbol hskips hsymbol hhead, rfl⟩⟩

/-- A repetition behind a gap finds the items of a repetition before it. -/
theorem scan_star_of_repeats {peg : Peg Rule} (heats : peg.eats eats) {cursor : Cursor}
    {found : Found Rule}
    (hfound : Repeats (language.gap false) (language.scan false peg) cursor found) :
    ∃ stop, language.scan false (.star peg) (language.gap false cursor) =
      some ⟨found.nodes, stop⟩ ∧ language.gap false stop = language.gap false found.stop ∧
      Skips found.stop.rest stop.rest := by
  have hsettled : language.gap false (language.gap false cursor) = language.gap false cursor :=
    settled_gap cursor
  have hstar := fun found => @Grammar.Ranked.scan_star_iff _ _ ranked _ _ _ found heats hsettled
  cases hfound with
  | stop hnone =>
      exact ⟨_, (hstar _).mpr (.stop (hsettled.symm ▸ hnone)), hsettled, skips_gap cursor⟩
  | more hfirst hothers =>
      exact ⟨_, (hstar _).mpr (.more (hsettled.symm ▸ hfirst) hothers), rfl, .refl _⟩

end PlZero.Language
