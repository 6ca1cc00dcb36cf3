import PlZero.Proofs.Expr.Soundness

/-! # Phrases of expressions are read

A phrase of an expression is what the rule of expressions finds, if what follows it is not the
start of another operator. Every ordered choice on the way takes the alternative of the phrase,
as the first characters of the others differ from it, and every repetition takes all there is.
-/

namespace PlZero.Expr

open Peg PlZero.Language

/-- What is found behind the gap at a place becomes a tree, up to the blanks behind its phrase. -/
def Reads {Tree : Type} (peg : Peg Rule) (build : List (Node Rule) → Except TreeError Tree)
    (cursor : Cursor) (tree : Tree) (rest : List Char) : Prop :=
  ∃ found, language.scan false peg (language.gap false cursor) = some found ∧
    build found.nodes = .ok tree ∧ Skips rest found.stop.rest

/-- Phrases of expressions are found wherever fewer characters than `bound` are left. -/
def CompleteBelow (bound : Nat) : Prop :=
  ∀ (cursor : Cursor) (value : Expr) (rest : List Char), cursor.rest.length < bound →
    Derives .comparison cursor.rest value rest → Avoids operatorSigns rest →
    Reads (body .expr) ofNodes cursor value rest

theorem exists_boolText_eq (value : Bool) :
    ∃ head tail, (boolText value).toList = head :: tail ∧ head.isAlpha := by
  cases value <;> exact ⟨_, _, rfl, by decide⟩

/-- Where a text starts with a letter there is no number and no string. -/
theorem scan_operand_of_isAlpha {cursor : Cursor} {head : Char} {tail : List Char}
    (hrest : cursor.rest = head :: tail) (hhead : head.isAlpha) :
    language.scan false operand cursor =
      (language.find false (.bool true) cursor).or
        ((language.find false (.bool false) cursor).or
          ((language.find false .ident cursor).or
            (language.scan false (all [sign '(', .enter .expr, sign ')']) cursor))) := by
  have hquote : head ≠ '"' := by
    rintro rfl
    revert hhead
    decide
  rw [scan_operand, find_int_eq_none hrest (isDigit_eq_false_of_isAlpha hhead),
    find_str_eq_none hrest hquote, Option.none_or, Option.none_or]

theorem scan_operand_of_parens {cursor : Cursor} {inner : List Char}
    (hrest : cursor.rest = '(' :: inner) :
    language.scan false operand cursor =
      language.scan false (all [sign '(', .enter .expr, sign ')']) cursor := by
  have hrun : WholeRun Char.isAlphanum cursor.rest [] ('(' :: inner) :=
    ⟨hrest, by simp, by simp⟩
  rw [scan_operand, find_int_eq_none hrest (by decide), find_str_eq_none hrest (by decide),
    find_bool_eq_none hrun (by decide), find_bool_eq_none hrun (by decide),
    find_ident_eq_none hrest (by decide)]
  simp only [Option.none_or]

theorem scan_parens_complete {bound : Nat} (hcomplete : CompleteBelow bound) {cursor : Cursor}
    {value : Expr} {inner outer rest : List Char}
    (hbound : (language.gap false cursor).rest.length ≤ bound)
    (hopening : Symbol "(" cursor.rest inner) (hvalue : Derives .comparison inner value outer)
    (hclosing : Symbol ")" outer rest) :
    ∃ node offset, language.scan false operand (language.gap false cursor) =
      some ⟨[node], ⟨offset, rest⟩⟩ ∧ ofItem node = .ok (.operand value) := by
  have hstart := rest_gap_of_symbol (.refl _) hopening (by decide)
  have hlength := congrArg List.length hstart
  rw [List.length_append] at hlength
  have hfollow : Avoids operatorSigns outer := hclosing.avoids (by decide)
  obtain ⟨found, hfound, hnodes, hskips⟩ :=
    hcomplete ⟨(language.gap false cursor).offset + 1, inner⟩ value outer
      (Nat.lt_of_lt_of_le (by simp [hlength]) hbound)
      hvalue hfollow
  have hstop := rest_gap_of_symbol hskips hclosing (by decide)
  have henter : language.scan false (.enter .expr) _ = some _ :=
    find_eq_some_iff.mpr ⟨found, hfound, rfl⟩
  have hparens := scan_seq_of (scan_word_eq_some_iff.mpr ⟨inner, hstart, rfl⟩)
    (scan_seq_of henter (scan_word_eq_some_iff.mpr ⟨rest, hstop, rfl⟩))
  rw [scan_operand_of_parens hstart]
  refine ⟨_, _, hparens, ?_⟩
  rw [ofItem, hnodes]
  rfl

theorem scan_operand_complete {bound : Nat} (hcomplete : CompleteBelow bound) {cursor : Cursor}
    {value : Expr} {rest : List Char} (hbound : (language.gap false cursor).rest.length ≤ bound)
    (hvalue : Derives .operand cursor.rest value rest) :
    ∃ node offset, language.scan false operand (language.gap false cursor) =
      some ⟨[node], ⟨offset, rest⟩⟩ ∧ ofItem node = .ok (.operand value) := by
  have hgap := rest_gap cursor
  cases hvalue with
  | int hint =>
      obtain ⟨digits, hrun, hnil, hword⟩ := hint.exists_wholeRun
      rw [← hgap] at hrun
      rw [scan_operand, find_int_eq_some_iff.mpr ⟨digits, rest, hrun, hnil, rfl⟩]
      refine ⟨_, _, rfl, ?_⟩
      rw [ofItem, intOfDigits?, wordOfInt?_eq_some_iff.mpr hword]
  | @str text _ _ hstr =>
      rw [hstr.2.dropWhile_eq_cons (by decide)] at hgap
      rw [scan_operand, find_int_eq_none hgap (by decide),
        find_str_eq_some_iff.mpr ⟨text.toList, rest, hstr.1, by simp [hgap], rfl⟩]
      refine ⟨_, _, rfl, ?_⟩
      simp only [ofItem, unquote?_quoted, String.ofList_toList]
  | @bool value _ _ hword =>
      obtain ⟨head, tail, hhead, halpha⟩ := exists_boolText_eq value
      have hrun := @wholeRun_gap _ cursor _ _ (.refl _) hword (by simp [hhead])
      have hrest := hrun.eq_append
      rw [hhead] at hrest
      have hfind := find_bool_eq_some_iff.mpr ⟨rest, hrun, rfl⟩
      have hscan := scan_operand_of_isAlpha hrest halpha
      cases value with
      | true =>
          rw [hfind] at hscan
          exact ⟨_, _, hscan, rfl⟩
      | false =>
          rw [find_bool_eq_none hrun (by decide), hfind] at hscan
          exact ⟨_, _, hscan, rfl⟩
  | @ident name _ _ hname =>
      obtain ⟨head, tail, hhead, halpha, -⟩ := hname.1.1
      have hrun := @wholeRun_gap _ cursor _ _ (.refl _) hname.2 (by simp [hhead])
      have hrest := hrun.eq_append
      rw [hhead] at hrest
      -- The words of truth values come first among the operands, but they are no names.
      have hother : ∀ value, name.toList ≠ (boolText value).toList := by
        intro value heq
        refine hname.1.2 (String.toList_inj.mp heq ▸ ?_)
        cases value <;> decide
      rw [scan_operand_of_isAlpha hrest halpha, find_bool_eq_none hrun (hother true),
        find_bool_eq_none hrun (hother false),
        find_ident_eq_some_iff.mpr ⟨name, rest, hname.1, hrun, rfl⟩]
      refine ⟨_, _, rfl, ?_⟩
      rw [ofItem, String.ofList_toList]
  | parens hopening hinner hclosing =>
      exact scan_parens_complete hcomplete hbound hopening hinner hclosing

/-- What an expression starts with. Only negations start with the sign of negation. -/
theorem Derives.exists_nextChar {tier : Tier} {input rest : List Char} {value : Expr}
    (hderives : Derives tier input value rest) :
    ∃ char, nextChar? input = some char ∧
      (char.isAlphanum ∨ char ∈ ['"', '('] ∨ char = '!' ∧ tier ≠ .operand) := by
  induction hderives with
  | int hint =>
      obtain ⟨digits, hrun, hnil, -⟩ := hint.exists_wholeRun
      obtain ⟨head, tail, rfl⟩ := List.exists_cons_of_ne_nil hnil
      refine ⟨head, ?_, .inl (isAlphanum_of_isDigit (hrun.accepts_run head List.mem_cons_self))⟩
      rw [nextChar?, hrun.eq_append]
      rfl
  | str hstr =>
      refine ⟨'"', ?_, by simp⟩
      rw [nextChar?, hstr.2.dropWhile_eq_cons (by decide)]
      rfl
  | @bool value _ _ hword =>
      obtain ⟨head, tail, hhead, halpha⟩ := exists_boolText_eq value
      refine ⟨head, ?_, .inl (isAlphanum_of_isAlpha halpha)⟩
      rw [hword.nextChar?_eq (by simp [hhead]), hhead]
      rfl
  | ident hname =>
      obtain ⟨head, tail, hhead, halpha, -⟩ := hname.1.1
      refine ⟨head, ?_, .inl (isAlphanum_of_isAlpha halpha)⟩
      rw [hname.2.nextChar?_eq (by simp [hhead]), hhead]
      rfl
  | parens hopening =>
      exact ⟨'(', hopening.nextChar?_eq (by decide), by simp⟩
  | not hsymbol =>
      exact ⟨'!', hsymbol.nextChar?_eq (by decide), by simp⟩
  | compare _ _ _ ih _ | add _ _ _ _ ih _ | multiply _ _ _ _ ih _ | ofSum _ ih
  | ofProduct _ ih | ofNegation _ ih | ofOperand _ ih =>
      obtain ⟨char, hchar, hstart⟩ := ih
      refine ⟨char, hchar, hstart.imp_right (Or.imp_right ?_)⟩
      refine fun hnegation => ⟨hnegation.1, fun htier => ?_⟩
      cases htier

theorem negations_complete {cursor : Cursor} {first : Factor} {rest : List Char}
    (hfactor : Factor.Derives cursor.rest first rest) :
    ∃ found, Repeats (language.gap false) (language.scan false (.enter .negation)) cursor found ∧
      ofItems found.nodes = .ok (List.replicate first.negations .negation) ∧
      Derives .operand found.stop.rest first.operand rest := by
  generalize hinput : cursor.rest = input at hfactor
  induction hfactor generalizing cursor with
  | operand hvalue =>
      -- An operand does not start with another negation, so the repetition stops in front of it.
      subst hinput
      refine ⟨_, .stop ?_, rfl, hvalue⟩
      refine Option.eq_none_iff_forall_ne_some.mpr fun found hfound => ?_
      obtain ⟨next, hnext, -⟩ := find_negation_eq_some_iff.mp hfound
      obtain ⟨char, hchar, hstart⟩ := hvalue.exists_nextChar
      rw [rest_gap] at hnext
      have hsign : nextChar? cursor.rest = some '!' := by rw [nextChar?, hnext]; rfl
      obtain rfl := Option.some_inj.mp (hchar.symm.trans hsign)
      rcases hstart with halphanum | hmem | ⟨-, hne⟩
      · exact absurd halphanum (by decide)
      · exact absurd hmem (by decide)
      · exact hne rfl
  | @negation _ next count value _ hsymbol _ ih =>
      subst hinput
      have hrest := rest_gap_of_symbol (.refl _) hsymbol (by decide)
      obtain ⟨found, hfound, hitems, hvalue⟩ :=
        @ih ⟨(language.gap false cursor).offset + 1, next⟩ rfl
      refine ⟨_, .more (find_negation_eq_some_iff.mpr ⟨next, hrest, rfl⟩) hfound, ?_, hvalue⟩
      rw [Found.nodes_append, matched, List.singleton_append, ofItems, hitems]
      rfl

theorem scan_factor_complete {bound : Nat} (hcomplete : CompleteBelow bound) {cursor : Cursor}
    {first : Factor} {rest : List Char} (hbound : (language.gap false cursor).rest.length ≤ bound)
    (hfactor : Factor.Derives cursor.rest first rest) :
    ∃ nodes offset, language.scan false factor (language.gap false cursor) =
      some ⟨nodes, ⟨offset, rest⟩⟩ ∧ ofItems nodes = .ok first.items := by
  obtain ⟨negations, hrepeats, hitems, hvalue⟩ := negations_complete hfactor
  obtain ⟨stop, hnegations, hstop, -⟩ := scan_star_of_repeats rfl hrepeats
  have hlength := length_le_of_scan hnegations
  have hgap := length_gap_le stop
  rw [hstop] at hgap
  obtain ⟨node, offset, hoperand, hitem⟩ :=
    scan_operand_complete hcomplete (by simp only at hlength; omega) hvalue
  rw [← hstop] at hoperand
  refine ⟨_, offset, scan_seq_of hnegations hoperand, ?_⟩
  rw [ofItems_append, hitems, ofItems, hitem]
  rfl

theorem scan_link_complete {bound : Nat} (hcomplete : CompleteBelow bound) {cursor : Cursor}
    {op : ArithOp} {first : Factor} {middle rest : List Char}
    (hbound : cursor.rest.length ≤ bound) (hsymbol : Symbol op.symbol cursor.rest middle)
    (hfactor : Factor.Derives middle first rest) :
    ∃ nodes offset, language.scan false (.seq arithmetic factor) (language.gap false cursor) =
      some ⟨nodes, ⟨offset, rest⟩⟩ ∧ ofItems nodes = .ok (.infixOp op :: first.items) := by
  have hrest := rest_gap_of_symbol (.refl _) hsymbol (by cases op <;> decide)
  have hlength := hsymbol.length_lt (by cases op <;> decide)
  have hgap := length_gap_le ⟨(language.gap false cursor).offset + op.symbol.toList.length, middle⟩
  obtain ⟨nodes, offset, hfirst, hitems⟩ :=
    scan_factor_complete hcomplete (Nat.le_trans hgap (by simp only; omega)) hfactor
  refine ⟨_, offset, scan_seq_of (scan_arithmetic_eq_some_iff.mpr ⟨op, middle, hrest, rfl⟩) hfirst,
    ?_⟩
  rw [matched, List.singleton_append, ofItems, hitems]
  rfl

theorem links_complete {bound : Nat} (hcomplete : CompleteBelow bound) {cursor : Cursor}
    {links : Links} {rest : List Char} (hbound : cursor.rest.length ≤ bound)
    (hlinks : Links.Derives cursor.rest links rest) (havoids : Avoids arithSigns rest) :
    ∃ found, Repeats (language.gap false) (language.scan false (.seq arithmetic factor)) cursor
      found ∧ ofItems found.nodes = .ok (Links.items links) ∧ found.stop.rest = rest := by
  generalize hinput : cursor.rest = input at hlinks
  induction hlinks generalizing cursor with
  | nil =>
      subst hinput
      refine ⟨_, .stop ?_, rfl, rfl⟩
      refine Option.eq_none_iff_forall_ne_some.mpr fun found hfound => ?_
      obtain ⟨start, _, hop, -⟩ := scan_seq_eq_some_iff.mp hfound
      obtain ⟨op, next, hnext, -⟩ := scan_arithmetic_eq_some_iff.mp hop
      exact rest_gap_ne havoids (by cases op <;> decide) hnext
  | @cons _ op middle first next links rest hsymbol hfactor _ ih =>
      subst hinput
      obtain ⟨nodes, offset, hlink, hitems⟩ :=
        scan_link_complete hcomplete hbound hsymbol hfactor
      have hlength := length_le_of_scan hlink
      have hgap := length_gap_le cursor
      obtain ⟨others, hothers, hlinks, hstop⟩ :=
        @ih ⟨offset, next⟩ (by simp only at hlength ⊢; omega) havoids rfl
      refine ⟨_, .more hlink hothers, ?_, hstop⟩
      rw [Found.nodes_append, ofItems_append, hitems, hlinks, Links.items_cons]
      rfl

/-- A sum is what the rule of chains finds, if no further operator of a chain follows. -/
theorem scan_chain_complete {bound : Nat} (hcomplete : CompleteBelow bound) {cursor : Cursor}
    {value : Expr} {rest : List Char} (hbound : cursor.rest.length ≤ bound)
    (hvalue : Derives .sum cursor.rest value rest) (havoids : Avoids arithSigns rest) :
    ∃ node stop, language.scan false (.enter .chain) (language.gap false cursor) =
        some ⟨[node], stop⟩ ∧
      ofChain node = .ok value ∧ Skips rest stop.rest := by
  obtain ⟨first, links, middle, hfirst, hlinks, rfl⟩ := derives_sum_iff.mp hvalue
  have hgap := length_gap_le cursor
  obtain ⟨nodes, offset, hfactor, hitems⟩ :=
    scan_factor_complete hcomplete (Nat.le_trans hgap hbound) hfirst
  have hlength := length_le_of_scan hfactor
  obtain ⟨others, hrepeats, hlinkItems, hrest⟩ :=
    @links_complete bound hcomplete ⟨offset, middle⟩ links rest (Nat.le_trans hlength (by omega))
      hlinks havoids
  obtain ⟨stop, hothers, -, hskips⟩ := scan_star_of_repeats rfl hrepeats
  have hchain : language.scan false (body .chain) _ = some _ :=
    scan_chain_eq_some_iff.mpr ⟨_, _, hfactor, hothers, rfl⟩
  refine ⟨_, stop, find_eq_some_iff.mpr ⟨_, hchain, rfl⟩, ?_, hrest ▸ hskips⟩
  rw [ofChain, Found.nodes_append, ofItems_append, hitems, hlinkItems]
  simp only [bind, Except.bind, Chain.tree?_items]

theorem avoids_arithSigns {middle rest : List Char} {others : Comparisons}
    (hothers : Comparisons.Derives middle others rest) (havoids : Avoids operatorSigns rest) :
    Avoids arithSigns middle := by
  cases hothers with
  | nil => exact havoids.mono (List.subset_append_left _ _)
  | @cons _ op _ _ _ _ _ hsymbol =>
      exact hsymbol.avoids (by cases op <;> decide)

/-- No expression starts with the sign that would make a comparison in front of it longer. -/
theorem Derives.head?_ne {tier : Tier} {input rest : List Char} {value : Expr}
    (hderives : Derives tier input value rest) : input.head? ≠ some '=' := by
  intro hhead
  obtain ⟨tail, rfl⟩ := List.head?_eq_some_iff.mp hhead
  obtain ⟨char, hchar, hstart⟩ := hderives.exists_nextChar
  rw [nextChar?_cons (by decide)] at hchar
  obtain rfl := Option.some_inj.mp hchar
  rcases hstart with halphanum | hmem | ⟨heq, -⟩
  · exact absurd halphanum (by decide)
  · exact absurd hmem (by decide)
  · exact absurd heq (by decide)

theorem scan_comparison_eq_none {cursor : Cursor} (havoids : Avoids operatorSigns cursor.rest) :
    language.scan false comparison (language.gap false cursor) = none := by
  refine Option.eq_none_iff_forall_ne_some.mpr fun found hfound => ?_
  obtain ⟨op, next, hnext, -⟩ := scan_comparison_eq_some_iff.mp hfound
  exact rest_gap_ne havoids (by cases op <;> decide) hnext

theorem comparisons_complete {bound : Nat} (hcomplete : CompleteBelow bound) {cursor : Cursor}
    {others : Comparisons} {middle rest : List Char} (hbound : cursor.rest.length ≤ bound)
    (hskips : Skips middle cursor.rest) (hothers : Comparisons.Derives middle others rest)
    (havoids : Avoids operatorSigns rest) :
    ∃ found, Repeats (language.gap false)
        (language.scan false (.seq comparison (.enter .chain))) cursor found ∧
      (∀ left, ofComparisons left found.nodes = .ok (compareTree left others)) ∧
      Skips rest found.stop.rest := by
  induction hothers generalizing cursor with
  | nil =>
      have hnone := scan_comparison_eq_none (havoids.of_skips hskips)
      refine ⟨_, .stop ?_, fun left => rfl, hskips⟩
      rw [Grammar.scan_seq, hnone, Option.bind_none]
  | @cons input op middle value next others rest hsymbol hvalue hothers ih =>
      have hrest := rest_gap_of_symbol hskips hsymbol (by cases op <;> decide)
      -- The longer of two operators is tried first, and needs a sign that no sum starts with.
      have hop := scan_comparison_eq_some_iff.mpr
        ⟨op, middle, hrest, fun _ => hvalue.head?_ne, rfl⟩
      have hlength := length_le_of_scan hop
      have hgap := length_gap_le cursor
      obtain ⟨node, stop, hchain, hnode, hstop⟩ := @scan_chain_complete bound hcomplete
        ⟨(language.gap false cursor).offset + op.symbol.toList.length, middle⟩ value next
        (Nat.le_trans hlength (by omega)) hvalue (avoids_arithSigns hothers havoids)
      have hlink := scan_seq_of hop hchain
      have hlength' := length_le_of_scan hlink
      obtain ⟨found, hfound, hnodes, hskips'⟩ :=
        @ih stop (Nat.le_trans hlength' (by omega)) hstop havoids
      refine ⟨_, .more hlink hfound, fun left => ?_, hskips'⟩
      change ofComparisons left (⟨.compare op, _, _, _⟩ :: node :: found.nodes) = _
      rw [ofComparisons, hnode]
      exact hnodes _

theorem complete {bound : Nat} (hcomplete : CompleteBelow bound) {cursor : Cursor}
    {value : Expr} {rest : List Char} (hbound : cursor.rest.length ≤ bound)
    (hvalue : Derives .comparison cursor.rest value rest) (havoids : Avoids operatorSigns rest) :
    Reads (body .expr) ofNodes cursor value rest := by
  obtain ⟨first, others, middle, hfirst, hothers, rfl⟩ := exists_comparisons_of_derives hvalue
  obtain ⟨node, stop, hchain, hnode, hstop⟩ :=
    scan_chain_complete hcomplete hbound hfirst (avoids_arithSigns hothers havoids)
  have hlength := length_le_of_scan hchain
  have hgap := length_gap_le cursor
  obtain ⟨found, hfound, hnodes, hskips⟩ :=
    @comparisons_complete bound hcomplete stop others middle rest (Nat.le_trans hlength (by omega))
      hstop hothers havoids
  obtain ⟨last, hstar, -, hlast⟩ := scan_star_of_repeats rfl hfound
  refine ⟨_, scan_seq_of hchain hstar, ?_, hskips.trans hlast⟩
  rw [Found.nodes_append, List.singleton_append, ofNodes, hnode]
  exact hnodes first

/-- Whatever is a phrase of an expression is read as such. -/
theorem scan_expr_complete (bound : Nat) : CompleteBelow bound := by
  induction bound with
  | zero => exact fun _ _ _ hlt => absurd hlt (Nat.not_lt_zero _)
  | succ bound ih => exact fun _ _ _ hlt => complete ih (Nat.le_of_lt_succ hlt)

theorem scan_enter_expr_complete {cursor : Cursor} {value : Expr} {rest : List Char}
    (hvalue : Derives .comparison cursor.rest value rest) (havoids : Avoids operatorSigns rest) :
    ∃ node stop, language.scan false (.enter .expr) (language.gap false cursor) =
        some ⟨[node], stop⟩ ∧
      ofNode node = .ok value ∧ Skips rest stop.rest := by
  obtain ⟨found, hfound, hnodes, hskips⟩ :=
    scan_expr_complete _ cursor value rest (Nat.lt_succ_self _) hvalue havoids
  exact ⟨_, found.stop, find_eq_some_iff.mpr ⟨found, hfound, rfl⟩, hnodes, hskips⟩

end PlZero.Expr
