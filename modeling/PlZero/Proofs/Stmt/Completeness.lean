import PlZero.Proofs.Expr.Completeness
import PlZero.Proofs.Stmt.Soundness

/-! # Phrases of statements are read

The word that a statement starts with decides which alternative is taken: two forms that start
with different words never match at one place. Statements follow one another without separators,
and where one ends is settled by what the next one starts with.
-/

namespace PlZero.Stmt

open Peg PlZero.Language

/-- What is found for a form of a statement behind the gap becomes the statement, up to the blanks
behind its phrase. -/
def ReadsForm (rule : Rule) (cursor : Cursor) (stmt : Stmt) (rest : List Char) : Prop :=
  ∃ found, language.scan (isToken rule) (body rule) (language.gap false cursor) = some found ∧
    (∀ offset text, ofForm ⟨rule, offset, text, found.nodes⟩ = .ok stmt) ∧
    Skips rest found.stop.rest

/-- What is found for a statement behind the gap becomes it, up to the blanks behind its phrase. -/
def Reads (cursor : Cursor) (stmt : Stmt) (rest : List Char) : Prop :=
  ∃ node stop, language.scan false (.enter .stmt) (language.gap false cursor) =
      some ⟨[node], stop⟩ ∧ node.rule = .stmt ∧ ofNode node = .ok stmt ∧ Skips rest stop.rest

/-- What is found for a block behind the gap becomes the block, exactly up to its end. -/
def ReadsBlock (cursor : Cursor) (block : Block) (rest : List Char) : Prop :=
  ∃ node offset, language.scan false (.enter .block) (language.gap false cursor) =
    some ⟨[node], ⟨offset, rest⟩⟩ ∧ ofBlock node = .ok block

/-- Statements are found one after another and become a list of statements. -/
def ReadsAll (cursor : Cursor) (block : Block) (rest : List Char) : Prop :=
  ∃ found, Repeats (language.gap false) (language.scan false (.enter .stmt)) cursor found ∧
    (∀ node ∈ found.nodes, node.rule = .stmt) ∧ ofNodes found.nodes = .ok block ∧
    Skips rest found.stop.rest

theorem ReadsForm.reads {rule : Rule} {cursor : Cursor} {stmt : Stmt} {rest : List Char}
    (hform : ReadsForm rule cursor stmt rest)
    (hfirst : ∀ found, language.find false rule (language.gap false cursor) = some found →
      form (language.gap false cursor) = some found) : Reads cursor stmt rest := by
  obtain ⟨found, hfound, hnode, hskips⟩ := hform
  have hform := hfirst _ (find_eq_some_iff.mpr ⟨found, hfound, rfl⟩)
  have hstmt : language.scan false (.enter .stmt) (language.gap false cursor) = some _ :=
    find_eq_some_iff.mpr ⟨_, (scan_stmt _).trans hform, rfl⟩
  exact ⟨_, found.stop, hstmt, rfl, hnode _ _, hskips⟩

theorem exists_wholeRun_of_find_print {cursor : Cursor} {found : Found Rule}
    (hfound : language.find false .print cursor = some found) :
    ∃ rest, WholeRun Char.isAlphanum cursor.rest "p".toList rest := by
  obtain ⟨inner, hinner, -⟩ := find_eq_some_iff.mp hfound
  obtain ⟨first, _, hfirst, -⟩ := scan_seq_eq_some_iff.mp hinner
  obtain ⟨word, hword, -⟩ := Option.map_eq_some_iff.mp hfirst
  obtain ⟨rest, hrun, -⟩ := find_printWord_eq_some_iff.mp hword
  exact ⟨rest, hrun⟩

section OtherWord

variable {word other : String} {cursor : Cursor} {middle : List Char}
  (hother : LoneWord other cursor.rest middle) (hnil : other.toList ≠ [])

include hother hnil

theorem scan_guard_eq_none (hne : other ≠ word) (hchars : word.toList.all Char.isAlphanum)
    (hword : word.toList ≠ []) (next : Peg Rule) :
    language.scan false (.seq (.word word.toList) (.seq (sign '(') next)) cursor = none := by
  refine Option.eq_none_iff_forall_ne_some.mpr fun found hfound => ?_
  obtain ⟨first, _, hfirst, hrest, rfl⟩ := scan_seq_eq_some_iff.mp hfound
  obtain ⟨second, _, hsecond, -, rfl⟩ := scan_seq_eq_some_iff.mp hrest
  obtain ⟨afterWord, hstart, rfl⟩ := scan_word_eq_some_iff.mp hfirst
  obtain ⟨start, hopening, -⟩ := scan_word_eq_some_iff.mp hsecond
  -- The word is followed by a parenthesis, so it stands alone without a check for it.
  have hsymbol : Symbol word cursor.rest afterWord := hstart ▸ .refl _
  have hopening' : Symbol "(" afterWord start := @symbol_of_rest_gap _ ⟨_, _⟩ _ hopening
  exact hne (hother.unique (hsymbol.loneWord hchars hopening' (by decide)) hnil hword)

theorem find_branch_eq_none (hne : other ≠ "if") : language.find false .branch cursor = none := by
  have hnone : language.scan (isToken .branch) (body .branch) cursor = none :=
    scan_guard_eq_none hother hnil hne (by decide) (by decide) _
  rw [find_eq_map, hnone, Option.map_none]

theorem find_loop_eq_none (hne : other ≠ "while") : language.find false .loop cursor = none := by
  have hnone : language.scan (isToken .loop) (body .loop) cursor = none :=
    scan_guard_eq_none hother hnil hne (by decide) (by decide) _
  rw [find_eq_map, hnone, Option.map_none]

theorem find_print_eq_none (hne : other ≠ "p") : language.find false .print cursor = none := by
  refine Option.eq_none_iff_forall_ne_some.mpr fun found hfound => ?_
  obtain ⟨rest, hrun⟩ := exists_wholeRun_of_find_print hfound
  have hword : LoneWord "p" cursor.rest rest := ⟨_, .refl _, hrun⟩
  exact hne (hother.unique hword hnil (by decide))

end OtherWord

section NoLetter

variable {cursor : Cursor} (hhead : ∀ char ∈ cursor.rest.head?, char.isAlpha = false)

include hhead

theorem rest_ne_append {head : Char} {tail rest : List Char} (halpha : head.isAlpha) :
    cursor.rest ≠ (head :: tail) ++ rest := by
  intro hrest
  rw [hhead head (by rw [hrest]; rfl)] at halpha
  cases halpha

theorem find_eq_none_of_word {rule : Rule} {head : Char} {tail : List Char} {next : Peg Rule}
    (halpha : head.isAlpha) (hbody : body rule = .seq (.word (head :: tail)) next) :
    language.find false rule cursor = none := by
  refine Option.eq_none_iff_forall_ne_some.mpr fun found hfound => ?_
  obtain ⟨inner, hinner, -⟩ := find_eq_some_iff.mp hfound
  rw [hbody] at hinner
  obtain ⟨first, _, hfirst, -⟩ := scan_seq_eq_some_iff.mp hinner
  obtain ⟨rest, hrest, -⟩ := scan_word_eq_some_iff.mp hfirst
  exact rest_ne_append hhead halpha hrest

/-- Where no letter stands there is no statement. -/
theorem scan_enter_stmt_eq_none : language.scan false (.enter .stmt) cursor = none := by
  have hbranch : language.find false .branch cursor = none :=
    find_eq_none_of_word hhead (by decide) rfl
  have hloop : language.find false .loop cursor = none :=
    find_eq_none_of_word hhead (by decide) rfl
  refine Option.eq_none_iff_forall_ne_some.mpr fun found hfound => ?_
  obtain ⟨inner, hinner, -⟩ := find_eq_some_iff.mp hfound
  have hform := (scan_stmt cursor).symm.trans hinner
  rw [form, hbranch, hloop, Option.none_or, Option.none_or, Option.or_eq_some_iff] at hform
  obtain hprint | ⟨-, hassign⟩ := hform
  · obtain ⟨rest, hrun⟩ := exists_wholeRun_of_find_print hprint
    exact rest_ne_append hhead (by decide) hrun.eq_append
  · obtain ⟨_, hassign, -⟩ := find_eq_some_iff.mp hassign
    obtain ⟨first, _, hfirst, -⟩ := scan_seq_eq_some_iff.mp hassign
    obtain ⟨name, rest, hname, hrun, -⟩ := find_ident_eq_some_iff.mp hfirst
    obtain ⟨head, tail, hcons, halpha⟩ := hname.exists_eq_cons
    rw [hcons] at hrun
    exact rest_ne_append hhead halpha hrun.eq_append

end NoLetter

theorem guard_complete {word : String} {cursor : Cursor} {input rest : List Char}
    {condition : Expr} (hskips : Skips input cursor.rest) (hguard : Guard word input condition rest)
    (hhead : word.toList.head?.any (! isBlank ·)) :
    ∃ node offset, Expr.ofNode node = .ok condition ∧
      ∀ next others, language.scan false next (language.gap false ⟨offset, rest⟩) = some others →
        language.scan false (.seq (.word word.toList)
          (.seq (sign '(') (.seq (.enter .expr) (.seq (sign ')') next))))
          (language.gap false cursor) = some ⟨node :: others.nodes, others.stop⟩ := by
  obtain ⟨afterWord, start, afterCondition, hword, hopening, hcondition, hclosing⟩ := hguard
  have hfollow : Avoids Expr.operatorSigns afterCondition := hclosing.avoids (by decide)
  obtain ⟨_, hfirst⟩ := exists_scan_word hskips hword hhead
  obtain ⟨_, hsecond⟩ := @exists_scan_word "(" ⟨_, afterWord⟩ _ start (.refl _) hopening (by decide)
  obtain ⟨node, stop, hvalue, hnode, hstop⟩ :=
    @Expr.scan_enter_expr_complete ⟨_, start⟩ condition afterCondition hcondition hfollow
  obtain ⟨offset, hlast⟩ := exists_scan_word hstop hclosing (by decide)
  refine ⟨node, offset, hnode, fun next others hothers => ?_⟩
  exact scan_seq_of hfirst (scan_seq_of hsecond (scan_seq_of hvalue (scan_seq_of hlast hothers)))

/-! ## The forms of a statement -/

theorem loneWord_gap {word : String} {cursor : Cursor} {input rest : List Char}
    (hskips : Skips input cursor.rest) (hword : LoneWord word input rest)
    (hnil : word.toList ≠ []) : LoneWord word (language.gap false cursor).rest rest :=
  ⟨_, .refl _, wholeRun_gap hskips hword hnil⟩

theorem assign_complete {cursor : Cursor} {input afterName start rest : List Char} {name : String}
    {value : Expr} (hskips : Skips input cursor.rest) (hname : Name name input afterName)
    (hsign : Symbol "=" afterName start) (hvalue : Expr.Derives .comparison start value rest)
    (hends : EndsStmt rest) : Reads cursor (.assign name value) rest := by
  obtain ⟨head, tail, hcons, -⟩ := hname.1.exists_eq_cons
  have hnil : name.toList ≠ [] := by simp [hcons]
  have hword := wholeRun_gap hskips hname.2 hnil
  have hlone := loneWord_gap hskips hname.2 hnil
  -- A name is no keyword, so no other form of a statement takes it for its first word.
  have hkeyword : ∀ word ∈ keywords, name ≠ word := by
    rintro _ hmem rfl
    exact hname.1.2 hmem
  have hident : language.scan false (.enter .ident) _ = some _ :=
    find_ident_eq_some_iff.mpr ⟨name, afterName, hname.1, hword, rfl⟩
  obtain ⟨_, hsign⟩ := @exists_scan_word "=" ⟨_, afterName⟩ _ start (.refl _) hsign (by decide)
  obtain ⟨node, stop, hexpr, hnode, hstop⟩ :=
    @Expr.scan_enter_expr_complete ⟨_, start⟩ value rest hvalue hends.avoids
  have hbody := scan_seq_of hident (scan_seq_of hsign hexpr)
  have hform : ReadsForm .assign cursor (.assign name value) rest := by
    refine ⟨_, hbody, fun offset text => ?_, hstop⟩
    change (Expr.ofNode node >>= fun value => .ok (Stmt.assign (.ofList name.toList) value)) = _
    rw [hnode, String.ofList_toList]
    rfl
  refine hform.reads fun found hfound => ?_
  rw [form, find_branch_eq_none hlone hnil (hkeyword _ (by decide)),
    find_loop_eq_none hlone hnil (hkeyword _ (by decide)),
    find_print_eq_none hlone hnil (hkeyword _ (by decide)), hfound]
  rfl

theorem print_complete {cursor : Cursor} {input start rest : List Char} {value : Expr}
    (hskips : Skips input cursor.rest) (hword : LoneWord "p" input start)
    (hvalue : Expr.Derives .comparison start value rest) (hends : EndsStmt rest) :
    Reads cursor (.print value) rest := by
  have hrun := wholeRun_gap hskips hword (by decide)
  have hlone := loneWord_gap hskips hword (by decide)
  have hahead : language.scan false (.ahead (.enter .printWord)) (language.gap false cursor) =
      some ⟨[], language.gap false cursor⟩ := by
    rw [Grammar.scan_ahead, Grammar.scan_enter, find_printWord_eq_some_iff.mpr ⟨start, hrun, rfl⟩]
    rfl
  obtain ⟨_, hsign⟩ : ∃ offset, language.scan false (sign 'p')
      (language.gap false (language.gap false cursor)) = some ⟨[], ⟨offset, start⟩⟩ := by
    rw [settled_gap cursor]
    exact ⟨_, scan_word_eq_some_iff.mpr ⟨start, hrun.eq_append, rfl⟩⟩
  obtain ⟨node, stop, hexpr, hnode, hstop⟩ :=
    @Expr.scan_enter_expr_complete ⟨_, start⟩ value rest hvalue hends.avoids
  have hbody := scan_seq_of hahead (scan_seq_of hsign hexpr)
  have hform : ReadsForm .print cursor (.print value) rest := by
    refine ⟨_, hbody, fun offset text => ?_, hstop⟩
    change (Expr.ofNode node >>= fun value => .ok (Stmt.print value)) = _
    rw [hnode]
    rfl
  refine hform.reads fun found hfound => ?_
  rw [form, find_branch_eq_none hlone (by decide) (by decide),
    find_loop_eq_none hlone (by decide) (by decide), hfound]
  rfl

theorem loop_complete {cursor : Cursor} {input next rest : List Char} {condition : Expr}
    {block : Block} (hskips : Skips input cursor.rest) (hguard : Guard "while" input condition next)
    (hblock : ∀ offset, ReadsBlock ⟨offset, next⟩ block rest) :
    Reads cursor (.loop condition block) rest := by
  obtain ⟨middle, hlone⟩ := hguard.loneWord (by decide)
  obtain ⟨value, offset, hvalue, hguard⟩ := guard_complete hskips hguard (by decide)
  obtain ⟨node, stop, hbody, hnode⟩ := hblock offset
  have hform : ReadsForm .loop cursor (.loop condition block) rest := by
    refine ⟨_, hguard _ _ hbody, fun offset text => ?_, .refl _⟩
    rw [ofForm, hvalue, hnode]
    rfl
  refine hform.reads fun found hfound => ?_
  rw [form, find_branch_eq_none (loneWord_gap hskips hlone (by decide)) (by decide) (by decide),
    hfound]
  rfl

theorem scan_else_eq_none {cursor : Cursor} (hends : ¬ ElseBlock cursor.rest) :
    language.scan false (.seq (.word "else".toList) (.enter .block)) (language.gap false cursor) =
      none := by
  refine Option.eq_none_iff_forall_ne_some.mpr fun found hfound => hends ?_
  obtain ⟨first, no, hfirst, hno, rfl⟩ := scan_seq_eq_some_iff.mp hfound
  obtain ⟨other, helse, rfl⟩ := scan_word_eq_some_iff.mp hfirst
  obtain ⟨inner, hinner, -⟩ := find_eq_some_iff.mp hno
  obtain ⟨start, _, hstart, -⟩ := scan_seq_eq_some_iff.mp hinner
  obtain ⟨stop, hopening, -⟩ := scan_word_eq_some_iff.mp hstart
  exact ⟨other, stop, symbol_of_rest_gap helse, @symbol_of_rest_gap _ ⟨_, other⟩ _ hopening⟩

theorem branch_complete {cursor : Cursor} {input next rest : List Char} {condition : Expr}
    {yes : Block} (hskips : Skips input cursor.rest) (hguard : Guard "if" input condition next)
    (hblock : ∀ offset, ReadsBlock ⟨offset, next⟩ yes rest) (hends : EndsStmt rest) :
    Reads cursor (.branch condition yes []) rest := by
  obtain ⟨value, offset, hvalue, hguard⟩ := guard_complete hskips hguard (by decide)
  obtain ⟨node, stop, hyes, hnode⟩ := hblock offset
  have hno : language.scan false (opt (.seq (.word "else".toList) (.enter .block)))
      (language.gap false ⟨stop, rest⟩) = some ⟨[], language.gap false ⟨stop, rest⟩⟩ := by
    rw [opt, Grammar.scan_choice, @scan_else_eq_none ⟨stop, rest⟩ hends.no_else]
    rfl
  have hform : ReadsForm .branch cursor (.branch condition yes []) rest := by
    refine ⟨_, hguard _ _ (scan_seq_of hyes hno), fun offset text => ?_, skips_gap ⟨stop, rest⟩⟩
    change ofForm ⟨.branch, _, _, [value, node]⟩ = _
    rw [ofForm, hvalue, hnode]
    rfl
  exact hform.reads fun found hfound => by rw [form, hfound, Option.some_or]

theorem branchElse_complete {cursor : Cursor} {input next afterYes other rest : List Char}
    {condition : Expr} {yes no : Block} (hskips : Skips input cursor.rest)
    (hguard : Guard "if" input condition next)
    (hyes : ∀ offset, ReadsBlock ⟨offset, next⟩ yes afterYes)
    (helse : Symbol "else" afterYes other)
    (hno : ∀ offset, ReadsBlock ⟨offset, other⟩ no rest) :
    Reads cursor (.branch condition yes no) rest := by
  obtain ⟨value, offset, hvalue, hguard⟩ := guard_complete hskips hguard (by decide)
  obtain ⟨node, stop, hyes, hnode⟩ := hyes offset
  obtain ⟨start, helse⟩ := @exists_scan_word "else" ⟨stop, afterYes⟩ _ other (.refl _) helse
    (by decide)
  obtain ⟨node', last, hno, hnode'⟩ := hno start
  have hother : language.scan false (opt (.seq (.word "else".toList) (.enter .block)))
      (language.gap false ⟨stop, afterYes⟩) = some ⟨[node'], ⟨last, rest⟩⟩ := by
    rw [opt, Grammar.scan_choice, scan_seq_of helse hno]
    rfl
  have hform : ReadsForm .branch cursor (.branch condition yes no) rest := by
    refine ⟨_, hguard _ _ (scan_seq_of hyes hother), fun offset text => ?_, .refl _⟩
    change ofForm ⟨.branch, _, _, [value, node, node']⟩ = _
    rw [ofForm, hvalue, hnode, hnode']
    rfl
  exact hform.reads fun found hfound => by rw [form, hfound, Option.some_or]

/-! ## Blocks -/

theorem readsAll_nil {cursor : Cursor} {rest : List Char} (hskips : Skips rest cursor.rest)
    (hnext : ∀ char ∈ nextChar? rest, char = '\x7d') : ReadsAll cursor [] rest := by
  refine ⟨_, .stop (scan_enter_stmt_eq_none fun char hchar => ?_), by simp, rfl, hskips⟩
  rw [rest_gap, ← hskips.dropWhile_eq] at hchar
  rw [hnext char hchar]
  decide

theorem Reads.cons {cursor : Cursor} {first : Stmt} {others : Block} {next rest : List Char}
    (hfirst : Reads cursor first next)
    (hothers : ∀ place : Cursor, Skips next place.rest → ReadsAll place others rest) :
    ReadsAll cursor (first :: others) rest := by
  obtain ⟨node, stop, hfind, hrule, hnode, hstop⟩ := hfirst
  obtain ⟨found, hfound, hrules, hnodes, hskips⟩ := hothers stop hstop
  refine ⟨_, .more hfind hfound, ?_, ?_, hskips⟩
  · simpa using ⟨hrule, hrules⟩
  · rw [Found.nodes_append, List.singleton_append, ofNodes, hnode, hnodes]
    rfl

theorem readsBlock {cursor : Cursor} {input start stop rest : List Char} {block : Block}
    (hskips : Skips input cursor.rest) (hopening : Symbol "\x7b" input start)
    (hblock : ∀ offset, ReadsAll ⟨offset, start⟩ block stop) (hclosing : Symbol "\x7d" stop rest) :
    ReadsBlock cursor block rest := by
  obtain ⟨offset, hfirst⟩ := exists_scan_word hskips hopening (by decide)
  obtain ⟨found, hfound, -, hnodes, hstop⟩ := hblock offset
  obtain ⟨place, hstar, hplace, hskips⟩ := scan_star_of_repeats rfl hfound
  obtain ⟨last, hlast⟩ := exists_scan_word (hstop.trans hskips) hclosing (by decide)
  have hbody := scan_seq_of hfirst (scan_seq_of hstar hlast)
  have hblock : language.scan false (.enter .block) (language.gap false cursor) = some _ :=
    find_eq_some_iff.mpr ⟨_, hbody, rfl⟩
  refine ⟨_, last, hblock, ?_⟩
  change ofNodes (found.nodes ++ []) = _
  rw [List.append_nil, hnodes]

/-! ## All phrases -/

theorem readsBlock_of_braced {input rest : List Char} {block : Block}
    (hblock : Block.Braced input block rest)
    (hreads : ∀ {start stop : List Char}, Block.Derives start block stop →
      ∀ cursor : Cursor, Skips start cursor.rest → (∀ char ∈ nextChar? stop, char = '\x7d') →
        ReadsAll cursor block stop)
    (cursor : Cursor) (hskips : Skips input cursor.rest) : ReadsBlock cursor block rest := by
  cases hblock with
  | @braces _ start _ stop _ hopening hblock hclosing =>
      refine readsBlock hskips hopening (fun offset => ?_) hclosing
      refine hreads hblock ⟨offset, start⟩ (.refl start) ?_
      rw [hclosing.nextChar?_eq (by decide)]
      simp

mutual

theorem reads_of_derives {input rest : List Char} {stmt : Stmt}
    (hstmt : Stmt.Derives input stmt rest) (cursor : Cursor) (hskips : Skips input cursor.rest)
    (hends : EndsStmt rest) : Reads cursor stmt rest := by
  -- The recursion is on the tree, as the blocks of a statement are parts of it.
  cases stmt with
  | assign name value =>
      cases hstmt with
      | assign hname hsign hvalue => exact assign_complete hskips hname hsign hvalue hends
  | print value =>
      cases hstmt with
      | print hword hvalue => exact print_complete hskips hword hvalue hends
  | branch condition yes no =>
      cases hstmt with
      | branch hword hopening hcondition hclosing hyes =>
          exact branch_complete hskips ⟨_, _, _, hword, hopening, hcondition, hclosing⟩
            (fun offset => readsBlock_of_braced hyes (fun hall => readsAll_of_derives hall)
              ⟨offset, _⟩ (.refl _)) hends
      | branchElse hword hopening hcondition hclosing hyes helse hno =>
          exact branchElse_complete hskips ⟨_, _, _, hword, hopening, hcondition, hclosing⟩
            (fun offset => readsBlock_of_braced hyes (fun hall => readsAll_of_derives hall)
              ⟨offset, _⟩ (.refl _)) helse
            (fun offset => readsBlock_of_braced hno (fun hall => readsAll_of_derives hall)
              ⟨offset, _⟩ (.refl _))
  | loop condition body =>
      cases hstmt with
      | loop hword hopening hcondition hclosing hbody =>
          exact loop_complete hskips ⟨_, _, _, hword, hopening, hcondition, hclosing⟩
            (fun offset => readsBlock_of_braced hbody (fun hall => readsAll_of_derives hall)
              ⟨offset, _⟩ (.refl _))
termination_by structural stmt

theorem readsAll_of_derives {input rest : List Char} {block : Block}
    (hblock : Block.Derives input block rest) (cursor : Cursor) (hskips : Skips input cursor.rest)
    (hnext : ∀ char ∈ nextChar? rest, char = '\x7d') : ReadsAll cursor block rest := by
  cases block with
  | nil =>
      cases hblock with
      | nil => exact readsAll_nil hskips hnext
  | cons first others =>
      cases hblock with
      | cons hfirst hothers =>
          exact (reads_of_derives hfirst cursor hskips (hothers.endsStmt hnext)).cons
            fun place hplace => readsAll_of_derives hothers place hplace hnext
termination_by structural block

end

end PlZero.Stmt
