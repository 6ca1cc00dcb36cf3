import PlZero.Expr.OfNode
import PlZero.Proofs.Expr.Tiers
import PlZero.Proofs.Grammar.Readings

/-! # Readings of expressions are phrases

Whatever the rule of expressions finds, its nodes have the shape that their rules promise, and
the tree that they become is the tree of a phrase. The phrase starts where the reading starts and
ends where it stops, or at the blanks before that place.
-/

namespace PlZero

open Peg PlZero.Language

/-- Nodes become a tree with some property, unless a literal among them is no word. -/
def Yields {Tree : Type} (holds : Tree → Prop) : Except TreeError Tree → Prop
  | .ok tree => holds tree
  | .error (.oversized _ _) => True
  | .error (.misshapen _) => False

namespace Yields

variable {Tree Other : Type} {holds : Tree → Prop} {other : Other → Prop}
  {outcome : Except TreeError Tree}

theorem bind {next : Tree → Except TreeError Other} (houtcome : Yields holds outcome)
    (hnext : ∀ tree, holds tree → Yields other (next tree)) : Yields other (outcome >>= next) := by
  rcases outcome with (rule | ⟨offset, digits⟩) | tree
  · exact houtcome
  · exact houtcome
  · exact hnext tree houtcome

theorem imp {weaker : Tree → Prop} (houtcome : Yields holds outcome)
    (hweaker : ∀ tree, holds tree → weaker tree) : Yields weaker outcome := by
  rcases outcome with (rule | ⟨offset, digits⟩) | tree
  · exact houtcome
  · exact houtcome
  · exact hweaker tree houtcome

end Yields

theorem wordOfInt?_eq_some_iff {number : Nat} {value : Int64} :
    wordOfInt? number = some value ↔ value.toInt = number := by
  constructor
  · intro hword
    rw [wordOfInt?, Option.ite_none_right_eq_some, Option.some_inj] at hword
    obtain ⟨⟨hlow, hhigh⟩, rfl⟩ := hword
    rw [Int64.toInt_minValue] at hlow
    rw [Int64.toInt_maxValue] at hhigh
    exact Int64.toInt_ofInt_of_le hlow (Int.lt_of_le_sub_one hhigh)
  · intro hvalue
    rw [← hvalue, wordOfInt?_toInt]

theorem unquote?_quoted (text : List Char) : unquote? ('"' :: text ++ ['"']) = some text := by
  simp [unquote?]

namespace Expr

theorem ofItems_append (first next : List (Node Rule)) :
    ofItems (first ++ next) =
      (ofItems first >>= fun items => ofItems next >>= fun others => .ok (items ++ others)) := by
  induction first with
  | nil =>
      rw [List.nil_append, ofItems]
      cases ofItems next <;> rfl
  | cons node first ih =>
      rw [List.cons_append, ofItems, ofItems, ih]
      cases ofItem node <;> cases ofItems first <;> cases ofItems next <;> rfl

/-- What is found for an expression from a place on becomes the tree of a phrase. -/
def SoundAt (cursor : Cursor) : Prop :=
  ∀ found, language.scan false (body .expr) cursor = some found →
    Yields (Spans (Derives .comparison) cursor.rest · found.stop.rest) (ofNodes found.nodes)

/-- What is found for an expression becomes the tree of a phrase, wherever fewer characters than
`bound` are left. -/
def SoundBelow (bound : Nat) : Prop :=
  ∀ cursor : Cursor, cursor.rest.length < bound → Settled cursor → SoundAt cursor

/-- The items of two lists of nodes are put together. -/
theorem yields_ofItems_append {first next : List (Node Rule)}
    {holds holds' whole : List ChainItem → Prop} (hfirst : Yields holds (ofItems first))
    (hnext : Yields holds' (ofItems next))
    (hwhole : ∀ items others, holds items → holds' others → whole (items ++ others)) :
    Yields whole (ofItems (first ++ next)) := by
  rw [ofItems_append]
  refine hfirst.bind fun items hitems => hnext.bind fun others hothers => ?_
  exact hwhole items others hitems hothers

theorem yields_ofItems_concat {nodes : List (Node Rule)} {node : Node Rule}
    {items : List ChainItem} {holds : ChainItem → Prop} {whole : List ChainItem → Prop}
    (hitems : ofItems nodes = .ok items) (hnode : Yields holds (ofItem node))
    (hwhole : ∀ item, holds item → whole (items ++ [item])) :
    Yields whole (ofItems (nodes ++ [node])) := by
  rw [ofItems_append, hitems, ofItems]
  cases hitem : ofItem node with
  | error error =>
      rw [hitem] at hnode
      rcases error with rule | ⟨offset, digits⟩
      · exact hnode
      · trivial
  | ok item =>
      rw [hitem] at hnode
      exact hwhole item hnode

/-- An item that stands for an operand between two places. -/
def IsOperand (input rest : List Char) (item : ChainItem) : Prop :=
  ∃ value, item = .operand value ∧ Derives .operand input value rest

theorem scan_parens_sound {cursor : Cursor} {found : Found Rule}
    (hsound : SoundBelow cursor.rest.length)
    (hfound : language.scan false (all [sign '(', .enter .expr, sign ')']) cursor = some found) :
    ∃ node, found.nodes = [node] ∧
      Yields (IsOperand cursor.rest found.stop.rest) (ofItem node) := by
  simp only [all, sign, scan_seq_eq_some_iff, scan_word_eq_some_iff, Grammar.scan_enter,
    find_eq_some_iff] at hfound
  obtain ⟨_, _, ⟨start, hstart, rfl⟩, ⟨_, _, ⟨inner, hinner, rfl⟩, ⟨stop, hstop, rfl⟩, rfl⟩,
    rfl⟩ := hfound
  have hopening : Symbol "(" cursor.rest start := hstart ▸ .refl _
  have hclosing : Symbol ")" inner.stop.rest stop := symbol_of_rest_gap hstop
  have hskips := skips_gap ⟨cursor.offset + 1, start⟩
  have hlength : (language.gap false ⟨cursor.offset + 1, start⟩).rest.length <
      cursor.rest.length :=
    Nat.lt_of_le_of_lt hskips.length_le (hopening.length_lt (by decide))
  refine ⟨_, rfl, (hsound _ hlength (settled_gap _) inner hinner).bind ?_⟩
  rintro value ⟨rest, hvalue, hrest⟩
  exact ⟨value, rfl, .parens hopening (hvalue.of_skips hskips) (hclosing.of_skips hrest)⟩

theorem scan_operand_sound {cursor : Cursor} {found : Found Rule}
    (hsound : SoundBelow cursor.rest.length)
    (hfound : language.scan false operand cursor = some found) :
    ∃ node, found.nodes = [node] ∧
      Yields (IsOperand cursor.rest found.stop.rest) (ofItem node) := by
  simp only [scan_operand, Option.or_eq_some_iff] at hfound
  obtain hint | ⟨-, hstr | ⟨-, htrue | ⟨-, hfalse | ⟨-, hident | ⟨-, hparens⟩⟩⟩⟩⟩ := hfound
  · obtain ⟨digits, rest, hrun, hnil, rfl⟩ := find_int_eq_some_iff.mp hint
    refine ⟨_, rfl, ?_⟩
    simp only [ofItem, intOfDigits?]
    cases hword : wordOfInt? (Nat.ofDigitChars 10 digits 0) with
    -- A number that is no word has no tree, and nothing is claimed of it.
    | none => trivial
    | some value =>
        exact ⟨.int value, rfl, .int ⟨_, digits, .refl _, hrun, hnil,
          wordOfInt?_eq_some_iff.mp hword⟩⟩
  · obtain ⟨text, rest, hnot, hrest, rfl⟩ := find_str_eq_some_iff.mp hstr
    refine ⟨_, rfl, ?_⟩
    simp only [ofItem, unquote?_quoted]
    refine ⟨.str (.ofList text), rfl, .str ⟨?_, ?_⟩⟩
    · rwa [String.toList_ofList]
    · rw [String.toList_ofList, hrest, List.append_assoc]
      exact .refl _
  · obtain ⟨rest, hrun, rfl⟩ := find_bool_eq_some_iff.mp htrue
    exact ⟨_, rfl, .bool true, rfl, .bool ⟨_, .refl _, hrun⟩⟩
  · obtain ⟨rest, hrun, rfl⟩ := find_bool_eq_some_iff.mp hfalse
    exact ⟨_, rfl, .bool false, rfl, .bool ⟨_, .refl _, hrun⟩⟩
  · obtain ⟨name, rest, hname, hrun, rfl⟩ := find_ident_eq_some_iff.mp hident
    refine ⟨_, rfl, .ident name, ?_, .ident ⟨hname, _, .refl _, hrun⟩⟩
    rw [String.ofList_toList]
  · exact scan_parens_sound hsound hparens

/-- Some negations and the operand behind them. -/
def factor : Peg Rule := all [.star (.enter .negation), operand]

theorem scan_chain_eq_some_iff {cursor : Cursor} {found : Found Rule} :
    language.scan false (body .chain) cursor = some found ↔
      ∃ first others, language.scan false factor cursor = some first ∧
        language.scan false (.star (.seq arithmetic factor))
          (language.gap false first.stop) = some others ∧ found = first.append others := by
  simp only [body, factor, all, scan_seq_eq_some_iff]
  constructor
  · rintro ⟨negations, _, hnegations, ⟨value, others, hvalue, hothers, rfl⟩, rfl⟩
    refine ⟨_, others, ⟨negations, value, hnegations, hvalue, rfl⟩, hothers, ?_⟩
    simp only [Found.append, List.append_assoc]
  · rintro ⟨_, others, ⟨negations, value, hnegations, hvalue, rfl⟩, hothers, rfl⟩
    refine ⟨negations, _, hnegations, ⟨value, others, hvalue, hothers, rfl⟩, ?_⟩
    simp only [Found.append, List.append_assoc]

theorem negations_sound {cursor : Cursor} {found : Found Rule}
    (hfound : Repeats (language.gap false) (language.scan false (.enter .negation)) cursor found) :
    ∃ count, ofItems found.nodes = .ok (List.replicate count .negation) ∧
      ∀ value rest, Derives .operand found.stop.rest value rest →
        Factor.Derives cursor.rest ⟨count, value⟩ rest := by
  induction hfound with
  | stop => exact ⟨0, rfl, fun value rest hvalue => .operand hvalue⟩
  | @more cursor first others hfirst _ ih =>
      obtain ⟨count, hitems, hderives⟩ := ih
      obtain ⟨rest, hrest, rfl⟩ := find_negation_eq_some_iff.mp hfirst
      refine ⟨count + 1, ?_, fun value stop hvalue => ?_⟩
      · rw [Found.nodes_append, matched, List.singleton_append, ofItems, hitems]
        rfl
      · exact .negation (symbol_of_rest_gap hrest) (hderives value stop hvalue)

section Sound

variable {bound : Nat} (hsound : SoundBelow bound) {cursor : Cursor} {found : Found Rule}

include hsound

theorem scan_factor_sound (hbound : cursor.rest.length ≤ bound) (hsettled : Settled cursor)
    (hfound : language.scan false factor cursor = some found) :
    Yields (fun items => ∃ first : Factor, items = first.items ∧
      Factor.Derives cursor.rest first found.stop.rest) (ofItems found.nodes) := by
  obtain ⟨negations, value, hnegations, hvalue, rfl⟩ := scan_seq_eq_some_iff.mp hfound
  have hskips := skips_gap negations.stop
  have hlength := length_le_of_scan hnegations
  obtain ⟨count, hitems, hderives⟩ :=
    negations_sound ((ranked.scan_star_iff rfl hsettled).mp hnegations)
  have hsound' : SoundBelow (language.gap false negations.stop).rest.length :=
    fun inner hinner => hsound inner (by have := hskips.length_le; omega)
  obtain ⟨node, hnodes, hyields⟩ := scan_operand_sound hsound' hvalue
  rw [Found.nodes_append, hnodes]
  refine yields_ofItems_concat hitems hyields ?_
  rintro _ ⟨value, rfl, hvalue⟩
  exact ⟨⟨count, value⟩, rfl, hderives _ _ (hvalue.of_skips hskips)⟩

theorem scan_link_sound (hbound : cursor.rest.length ≤ bound)
    (hfound : language.scan false (.seq arithmetic factor) cursor = some found) :
    Yields (fun items => ∃ (op : ArithOp) (next : Factor) (middle : List Char),
      items = .infixOp op :: next.items ∧ cursor.rest = op.symbol.toList ++ middle ∧
        Factor.Derives middle next found.stop.rest) (ofItems found.nodes) := by
  obtain ⟨start, next, hop, hnext, rfl⟩ := scan_seq_eq_some_iff.mp hfound
  have hlength := length_le_of_scan hop
  have hgap := length_gap_le start.stop
  obtain ⟨op, middle, hmiddle, rfl⟩ := scan_arithmetic_eq_some_iff.mp hop
  refine (scan_factor_sound hsound (by omega) (settled_gap _) hnext).bind ?_
  rintro _ ⟨first, rfl, hfirst⟩
  exact ⟨op, first, middle, rfl, hmiddle, hfirst.of_skips (skips_gap ⟨_, middle⟩)⟩

theorem links_sound (hbound : cursor.rest.length ≤ bound)
    (hfound : Repeats (language.gap false) (language.scan false (.seq arithmetic factor)) cursor
      found) :
    Yields (fun items => ∃ links, items = Links.items links ∧
      Links.Derives cursor.rest links found.stop.rest) (ofItems found.nodes) := by
  induction hfound with
  | stop => exact ⟨[], rfl, .nil⟩
  | @more cursor first others hfirst _ ih =>
      have hlength := length_le_of_scan hfirst
      have hgap := length_gap_le cursor
      refine yields_ofItems_append (scan_link_sound hsound (by omega) hfirst) (ih (by omega)) ?_
      rintro _ _ ⟨op, next, middle, rfl, hmiddle, hnext⟩ ⟨links, rfl, hlinks⟩
      exact ⟨(op, next) :: links, by rw [Links.items_cons, List.cons_append],
        .cons (symbol_of_rest_gap hmiddle) hnext hlinks⟩

theorem find_chain_sound (hbound : cursor.rest.length ≤ bound) (hsettled : Settled cursor)
    (hfound : language.find false .chain cursor = some found) :
    ∃ node, found.nodes = [node] ∧
      Yields (Spans (Derives .sum) cursor.rest · found.stop.rest) (ofChain node) := by
  obtain ⟨inner, hinner, rfl⟩ := find_eq_some_iff.mp hfound
  obtain ⟨first, others, hfirst, hothers, rfl⟩ := scan_chain_eq_some_iff.mp hinner
  have hlength := length_le_of_scan hfirst
  have hgap := length_gap_le first.stop
  have hlinks := links_sound hsound (by omega)
    ((ranked.scan_star_iff rfl (settled_gap _)).mp hothers)
  have hitems : Yields (fun items => ∃ factor links,
      items = Factor.items factor ++ Links.items links ∧
        Spans (Derives .sum) cursor.rest (tierTree factor links) others.stop.rest)
      (ofItems (first.nodes ++ others.nodes)) := by
    refine yields_ofItems_append (scan_factor_sound hsound hbound hsettled hfirst) hlinks ?_
    rintro _ _ ⟨factor, rfl, hfactor⟩ ⟨links, rfl, hlinks⟩
    obtain ⟨rest, hlinks, hrest⟩ := hlinks.exists_of_skips (skips_gap _)
    exact ⟨factor, links, rfl, rest, derives_sum_iff.mpr ⟨_, _, _, hfactor, hlinks, rfl⟩, hrest⟩
  refine ⟨_, rfl, hitems.bind ?_⟩
  rintro _ ⟨factor, links, rfl, hspans⟩
  rw [Chain.tree?_items]
  exact hspans

theorem comparisons_sound {input : List Char} {left : Expr} (hbound : cursor.rest.length ≤ bound)
    (hleft : Spans (Derives .comparison) input left cursor.rest)
    (hfound : Repeats (language.gap false)
      (language.scan false (.seq comparison (.enter .chain))) cursor found) :
    Yields (Spans (Derives .comparison) input · found.stop.rest)
      (ofComparisons left found.nodes) := by
  -- What has been read so far is the left operand of what follows.
  induction hfound generalizing left with
  | stop => exact hleft
  | @more cursor first others hfirst _ ih =>
      have hlength := length_le_of_scan hfirst
      have hgap := length_gap_le cursor
      obtain ⟨start, next, hop, hnext, rfl⟩ := scan_seq_eq_some_iff.mp hfirst
      have hlength' := length_le_of_scan hop
      have hgap' := length_gap_le start.stop
      obtain ⟨op, middle, hmiddle, -, rfl⟩ := scan_comparison_eq_some_iff.mp hop
      obtain ⟨node, hnode, hyields⟩ := find_chain_sound hsound (by omega) (settled_gap _) hnext
      obtain ⟨rest, hleft, hrest⟩ := hleft
      rw [Found.nodes_append, Found.nodes_append, hnode]
      refine hyields.bind fun right hspans => ?_
      obtain ⟨stop, hright, hstop⟩ := hspans
      refine ih (by omega) ⟨stop, ?_, hstop⟩
      exact .compare hleft ((symbol_of_rest_gap hmiddle).of_skips hrest)
        (hright.of_skips (skips_gap ⟨_, middle⟩))

theorem soundAt (hbound : cursor.rest.length ≤ bound) (hsettled : Settled cursor) :
    SoundAt cursor := by
  intro found hfound
  obtain ⟨first, others, hfirst, hothers, rfl⟩ := scan_seq_eq_some_iff.mp hfound
  have hlength := length_le_of_scan hfirst
  have hgap := length_gap_le first.stop
  obtain ⟨node, hnode, hyields⟩ := find_chain_sound hsound hbound hsettled hfirst
  rw [Found.nodes_append, hnode]
  refine hyields.bind fun left hspans => ?_
  obtain ⟨rest, hleft, hrest⟩ := hspans
  exact comparisons_sound hsound (by omega) ⟨rest, .ofSum hleft, hrest.trans (skips_gap _)⟩
    ((ranked.scan_star_iff rfl (settled_gap _)).mp hothers)

end Sound

/-- Whatever is found for an expression becomes the tree of a phrase. -/
theorem scan_expr_sound (bound : Nat) : SoundBelow bound := by
  -- Parentheses hold an expression in a shorter text, so the bound goes down with each pair.
  induction bound with
  | zero => exact fun _ hlt => absurd hlt (Nat.not_lt_zero _)
  | succ bound ih => exact fun _ hlt => soundAt ih (Nat.le_of_lt_succ hlt)

theorem find_expr_sound {cursor : Cursor} {found : Found Rule} (hsettled : Settled cursor)
    (hfound : language.find false .expr cursor = some found) :
    ∃ node, found.nodes = [node] ∧
      Yields (Spans (Derives .comparison) cursor.rest · found.stop.rest) (ofNode node) := by
  obtain ⟨inner, hinner, rfl⟩ := find_eq_some_iff.mp hfound
  exact ⟨_, rfl, scan_expr_sound _ cursor (Nat.lt_succ_self _) hsettled inner hinner⟩

end Expr

end PlZero
