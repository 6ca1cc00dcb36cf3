import PlZero.Proofs.Expr.Soundness
import PlZero.Proofs.Stmt.Phrases
import PlZero.Stmt.OfNode

/-! # Readings of statements are phrases

Whatever the rule of statements finds has the shape that its builder expects, and becomes the
tree of a phrase.
-/

namespace PlZero.Stmt

open Peg PlZero.Language

/-- What is found for a statement becomes the tree of a phrase, wherever fewer characters than
`bound` are left. -/
def SoundBelow (bound : Nat) : Prop :=
  ∀ (cursor : Cursor) (found : Found Rule), cursor.rest.length < bound → Settled cursor →
    language.find false .stmt cursor = some found →
    ∃ node, found.nodes = [node] ∧ node.rule = .stmt ∧
      Yields (Spans Derives cursor.rest · found.stop.rest) (ofNode node)

/-- The forms of a statement in the order in which they are tried. -/
def form (cursor : Cursor) : Option (Found Rule) :=
  (language.find false .branch cursor).or
    ((language.find false .loop cursor).or
      ((language.find false .print cursor).or (language.find false .assign cursor)))

theorem scan_stmt (cursor : Cursor) : language.scan false (body .stmt) cursor = form cursor := rfl

/-- The common start of branches and loops. -/
theorem scan_guard_sound {word : String} {next : Peg Rule} {cursor : Cursor} {found : Found Rule}
    (hfound : language.scan false (.seq (.word word.toList)
      (.seq (sign '(') (.seq (.enter .expr) (.seq (sign ')') next)))) cursor = some found) :
    ∃ node place others, found = ⟨node :: others.nodes, others.stop⟩ ∧
      place.rest.length ≤ cursor.rest.length ∧
      Yields (Guard word cursor.rest · place.rest) (Expr.ofNode node) ∧
      language.scan false next (language.gap false place) = some others := by
  obtain ⟨first, _, hfirst, hrest, rfl⟩ := scan_seq_eq_some_iff.mp hfound
  obtain ⟨second, _, hsecond, hrest', rfl⟩ := scan_seq_eq_some_iff.mp hrest
  obtain ⟨value, _, hvalue, hrest'', rfl⟩ := scan_seq_eq_some_iff.mp hrest'
  obtain ⟨last, others, hlast, hothers, rfl⟩ := scan_seq_eq_some_iff.mp hrest''
  have hlength := calc last.stop.rest.length
      ≤ value.stop.rest.length := length_le_of_scan_gap hlast
    _ ≤ second.stop.rest.length := length_le_of_scan_gap hvalue
    _ ≤ first.stop.rest.length := length_le_of_scan_gap hsecond
    _ ≤ cursor.rest.length := length_le_of_scan hfirst
  obtain ⟨afterWord, hword, rfl⟩ := scan_word_eq_some_iff.mp hfirst
  obtain ⟨start, hopening, rfl⟩ := scan_word_eq_some_iff.mp hsecond
  obtain ⟨rest, hclosing, rfl⟩ := scan_word_eq_some_iff.mp hlast
  obtain ⟨node, hnode, hyields⟩ := Expr.find_expr_sound (settled_gap _) hvalue
  refine ⟨node, _, others, by simp [Found.append, hnode], hlength, hyields.imp ?_, hothers⟩
  rintro condition ⟨stop, hcondition, hstop⟩
  have hword' : Symbol word cursor.rest afterWord := hword ▸ .refl _
  have hopening' : Symbol "(" afterWord start := @symbol_of_rest_gap _ ⟨_, _⟩ _ hopening
  exact ⟨afterWord, start, stop, hword', hopening', hcondition.of_skips (skips_gap ⟨_, start⟩),
    (symbol_of_rest_gap hclosing).of_skips hstop⟩

theorem assign_sound {cursor : Cursor} {found : Found Rule}
    (hfound : language.find false .assign cursor = some found) :
    ∃ node, found.nodes = [node] ∧
      Yields (Spans Derives cursor.rest · found.stop.rest) (ofForm node) := by
  obtain ⟨inner, hinner, rfl⟩ := find_eq_some_iff.mp hfound
  simp only [body, all, sign, scan_seq_eq_some_iff, scan_word_eq_some_iff, isToken] at hinner
  obtain ⟨_, _, hident, ⟨_, value, ⟨start, hsign, rfl⟩, hvalue, rfl⟩, rfl⟩ := hinner
  obtain ⟨name, afterName, hname, hrun, rfl⟩ := find_ident_eq_some_iff.mp hident
  obtain ⟨node, hnode, hyields⟩ := Expr.find_expr_sound (settled_gap _) hvalue
  have hsign' : Symbol "=" afterName start := @symbol_of_rest_gap _ ⟨_, _⟩ _ hsign
  rcases value with ⟨nodes, stop⟩
  obtain rfl : nodes = [node] := hnode
  refine ⟨_, rfl, ?_⟩
  change Yields _ (Expr.ofNode node >>= fun value => .ok (Stmt.assign (.ofList name.toList) value))
  rw [String.ofList_toList]
  refine hyields.bind fun value hspans => ?_
  obtain ⟨rest, hvalue, hrest⟩ := hspans
  exact ⟨rest, .assign ⟨hname, _, .refl _, hrun⟩ hsign' (hvalue.of_skips (skips_gap ⟨_, start⟩)),
    hrest⟩

theorem print_sound {cursor : Cursor} {found : Found Rule} (hsettled : Settled cursor)
    (hfound : language.find false .print cursor = some found) :
    ∃ node, found.nodes = [node] ∧
      Yields (Spans Derives cursor.rest · found.stop.rest) (ofForm node) := by
  obtain ⟨inner, hinner, rfl⟩ := find_eq_some_iff.mp hfound
  simp only [body, all, sign, scan_seq_eq_some_iff, scan_word_eq_some_iff, isToken,
    Grammar.scan_ahead, Option.map_eq_some_iff] at hinner
  obtain ⟨_, _, ⟨word, hword, rfl⟩, ⟨_, value, ⟨start, hsign, rfl⟩, hvalue, rfl⟩, rfl⟩ := hinner
  obtain ⟨rest, hrun, rfl⟩ := find_printWord_eq_some_iff.mp hword
  rw [hsettled] at hsign
  obtain rfl : rest = start := List.append_cancel_left (hrun.eq_append.symm.trans hsign)
  obtain ⟨node, hnode, hyields⟩ := Expr.find_expr_sound (settled_gap _) hvalue
  rcases value with ⟨nodes, stop⟩
  obtain rfl : nodes = [node] := hnode
  refine ⟨_, rfl, ?_⟩
  change Yields _ (Expr.ofNode node >>= fun value => .ok (Stmt.print value))
  refine hyields.bind fun value hspans => ?_
  obtain ⟨stop, hvalue, hstop⟩ := hspans
  exact ⟨stop, .print ⟨_, .refl _, hrun⟩ (hvalue.of_skips (skips_gap ⟨_, rest⟩)), hstop⟩

section Sound

variable {bound : Nat} (hsound : SoundBelow bound) {cursor : Cursor} {found : Found Rule}

include hsound

theorem stmts_sound (hbound : cursor.rest.length < bound)
    (hfound : Repeats (language.gap false) (language.scan false (.enter .stmt)) cursor found) :
    (∀ node ∈ found.nodes, node.rule = .stmt) ∧
      Yields (Spans Block.Derives cursor.rest · found.stop.rest) (ofNodes found.nodes) := by
  induction hfound with
  | stop => exact ⟨by simp, _, .nil, .refl _⟩
  | @more cursor first others hfirst _ ih =>
      -- Both the statement and the others are read from places that are no further back.
      have hlength := length_le_of_scan hfirst
      have hgap := length_gap_le cursor
      obtain ⟨node, hnode, hrule, hyields⟩ := hsound _ _ (by omega) (settled_gap _) hfirst
      obtain ⟨hrules, hothers⟩ := ih (by omega)
      rw [Found.nodes_append, hnode, List.singleton_append]
      refine ⟨by simpa using ⟨hrule, hrules⟩, ?_⟩
      refine hyields.bind fun stmt hspans => hothers.bind fun block hspans' => ?_
      obtain ⟨rest, hstmt, hrest⟩ := hspans
      obtain ⟨stop, hblock, hstop⟩ := hspans'
      obtain ⟨stop', hblock, hstop'⟩ := hblock.exists_of_skips hrest
      exact ⟨stop', .cons (hstmt.of_skips (skips_gap _)) hblock, hstop'.trans hstop⟩

theorem block_sound (hbound : cursor.rest.length ≤ bound)
    (hfound : language.find false .block cursor = some found) :
    ∃ node, found.nodes = [node] ∧
      Yields (Block.Braced cursor.rest · found.stop.rest) (ofBlock node) := by
  obtain ⟨inner, hinner, rfl⟩ := find_eq_some_iff.mp hfound
  simp only [body, all, sign, scan_seq_eq_some_iff, scan_word_eq_some_iff, isToken] at hinner
  obtain ⟨_, _, ⟨start, hopening, rfl⟩, ⟨stmts, _, hstmts, ⟨rest, hclosing, rfl⟩, rfl⟩, rfl⟩ :=
    hinner
  have hopening' : Symbol "\x7b" cursor.rest start := hopening ▸ .refl _
  have hlength := hopening'.length_lt (by decide)
  have hskips := skips_gap ⟨cursor.offset + 1, start⟩
  have hgap := hskips.length_le
  obtain ⟨-, hyields⟩ := stmts_sound hsound (Nat.lt_of_le_of_lt hgap (by simp only; omega))
    ((ranked.scan_star_iff rfl (settled_gap _)).mp hstmts)
  refine ⟨_, rfl, ?_⟩
  change Yields _ (ofNodes ([] ++ (stmts.nodes ++ [])))
  rw [List.append_nil, List.nil_append]
  refine hyields.imp fun block hspans => ?_
  obtain ⟨stop, hblock, hstop⟩ := hspans
  obtain ⟨stop', hblock, hstop'⟩ := hblock.exists_of_skips hskips
  exact .braces hopening' hblock ((symbol_of_rest_gap hclosing).of_skips (hstop'.trans hstop))

theorem loop_sound (hbound : cursor.rest.length ≤ bound)
    (hfound : language.find false .loop cursor = some found) :
    ∃ node, found.nodes = [node] ∧
      Yields (Spans Derives cursor.rest · found.stop.rest) (ofForm node) := by
  obtain ⟨inner, hinner, rfl⟩ := find_eq_some_iff.mp hfound
  obtain ⟨condition, place, others, rfl, hlength, hyields, hbody⟩ :=
    @scan_guard_sound "while" (.enter .block) cursor inner hinner
  have hgap := length_gap_le place
  obtain ⟨node, hnode, hblock⟩ := block_sound hsound (by omega) hbody
  refine ⟨_, rfl, ?_⟩
  rw [hnode]
  refine hyields.bind fun value hguard => hblock.bind fun block hblock => ?_
  obtain ⟨afterWord, start, afterCondition, hword, hopening, hvalue, hclosing⟩ := hguard
  exact ⟨_, .loop hword hopening hvalue hclosing (hblock.of_skips (skips_gap place)), .refl _⟩

theorem branch_sound (hbound : cursor.rest.length ≤ bound)
    (hfound : language.find false .branch cursor = some found) :
    ∃ node, found.nodes = [node] ∧
      Yields (Spans Derives cursor.rest · found.stop.rest) (ofForm node) := by
  obtain ⟨inner, hinner, rfl⟩ := find_eq_some_iff.mp hfound
  obtain ⟨condition, place, others, rfl, hlength, hyields, hblocks⟩ :=
    @scan_guard_sound "if" _ cursor inner hinner
  obtain ⟨yes, other, hyes, hother, rfl⟩ := scan_seq_eq_some_iff.mp hblocks
  have hgap := length_gap_le place
  have hlength' := length_le_of_scan_gap hyes
  obtain ⟨node, hnode, hblock⟩ := block_sound hsound (by omega) hyes
  refine ⟨_, rfl, ?_⟩
  rw [Found.nodes_append, hnode]
  obtain hsome | ⟨-, hempty⟩ := Option.or_eq_some_iff.mp hother
  · obtain ⟨first, no, hfirst, hno, rfl⟩ := scan_seq_eq_some_iff.mp hsome
    have hlength'' := length_le_of_scan_gap hfirst
    have hgap' := length_gap_le first.stop
    obtain ⟨node', hnode', hblock'⟩ := block_sound hsound (by omega) hno
    obtain ⟨start, helse, rfl⟩ := scan_word_eq_some_iff.mp hfirst
    rw [Found.nodes_append, hnode']
    refine hyields.bind fun value hguard => hblock.bind fun yes hyes =>
      hblock'.bind fun no hno => ?_
    obtain ⟨afterWord, start, afterCondition, hword, hopening, hvalue, hclosing⟩ := hguard
    exact ⟨_, .branchElse hword hopening hvalue hclosing (hyes.of_skips (skips_gap place))
      (symbol_of_rest_gap helse) (hno.of_skips (skips_gap ⟨_, _⟩)), .refl _⟩
  · obtain rfl := Option.some_inj.mp hempty
    refine hyields.bind fun value hguard => hblock.bind fun block hblock => ?_
    obtain ⟨afterWord, start, afterCondition, hword, hopening, hvalue, hclosing⟩ := hguard
    exact ⟨_, .branch hword hopening hvalue hclosing (hblock.of_skips (skips_gap place)),
      skips_gap _⟩

theorem stmt_sound (hbound : cursor.rest.length ≤ bound) (hsettled : Settled cursor)
    (hfound : language.find false .stmt cursor = some found) :
    ∃ node, found.nodes = [node] ∧ node.rule = .stmt ∧
      Yields (Spans Derives cursor.rest · found.stop.rest) (ofNode node) := by
  obtain ⟨inner, hinner, rfl⟩ := find_eq_some_iff.mp hfound
  have hform : ∃ node, inner.nodes = [node] ∧
      Yields (Spans Derives cursor.rest · inner.stop.rest) (ofForm node) := by
    have hsome := (scan_stmt cursor).symm.trans hinner
    simp only [form, Option.or_eq_some_iff] at hsome
    obtain hbranch | ⟨-, hloop | ⟨-, hprint | ⟨-, hassign⟩⟩⟩ := hsome
    · exact branch_sound hsound hbound hbranch
    · exact loop_sound hsound hbound hloop
    · exact print_sound hsettled hprint
    · exact assign_sound hassign
  obtain ⟨node, hnode, hyields⟩ := hform
  refine ⟨_, rfl, rfl, ?_⟩
  rw [hnode]
  exact hyields

end Sound

/-- Whatever is found for a statement becomes the tree of a phrase. -/
theorem find_stmt_sound (bound : Nat) : SoundBelow bound := by
  -- Blocks hold statements behind a brace, so the bound goes down with each of them.
  induction bound with
  | zero => exact fun _ _ hlt => absurd hlt (Nat.not_lt_zero _)
  | succ bound ih => exact fun _ _ hlt => stmt_sound ih (Nat.le_of_lt_succ hlt)

end PlZero.Stmt
