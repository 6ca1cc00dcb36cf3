import PlZero.Proofs.Entry
import PlZero.Proofs.Peg.Forest
import PlZero.Proofs.Text.Position

/-! # Nodes have the shape that trees are built from

A tree is built from nodes by rule: every builder asks for children of certain rules, in a certain
order and no more of them. Nodes that the grammar leaves always have this shape, so a text that
matches has a tree, unless one of its literals is no word.
-/

namespace PlZero

open Peg PlZero.Language

/-- The rules of operands. -/
def operandRules : List Rule := [.int, .str, .bool true, .bool false, .ident, .expr]

/-- The rules of the forms of a statement. -/
def formRules : List Rule := [.assign, .print, .branch, .loop]

/-- The first and the last byte of a text are two characters, so the bytes between them are whole
characters. -/
def Sliceable (text : List Char) : Prop :=
  2 ≤ Text.byteLength text ∧ Text.charsWithin? 1 text = some 1 ∧
    Text.charsWithin? (Text.byteLength text - 1) text = some (text.length - 1)

/-- What nodes are that stand one behind another. -/
inductive Part where
  | one (rule : Rule)
  | stmts
  | comparisons
  | chain

/-- Nodes have the rules, the children and the texts that their builders ask for, and every
integer literal among them has some property. -/
inductive Shaped (literal : Nat → List Char → Prop) : Part → List (Node Rule) → Prop where
  | finish {offset text} : Shaped literal (.one .finish) [⟨.finish, offset, text, []⟩]
  | program {offset text stmts stop} :
      Shaped literal .stmts stmts → Shaped literal (.one .finish) [stop] →
      Shaped literal (.one .program) [⟨.program, offset, text, stmts ++ [stop]⟩]
  | wholeStmt {offset text stmt stop} :
      Shaped literal (.one .stmt) [stmt] → Shaped literal (.one .finish) [stop] →
      Shaped literal (.one .wholeStmt) [⟨.wholeStmt, offset, text, [stmt, stop]⟩]
  | wholeExpr {offset text value stop} :
      Shaped literal (.one .expr) [value] → Shaped literal (.one .finish) [stop] →
      Shaped literal (.one .wholeExpr) [⟨.wholeExpr, offset, text, [value, stop]⟩]
  | stmt {offset text rule form} :
      rule ∈ formRules → Shaped literal (.one rule) [form] →
      Shaped literal (.one .stmt) [⟨.stmt, offset, text, [form]⟩]
  | assign {offset text name value} :
      Shaped literal (.one .ident) [name] → Shaped literal (.one .expr) [value] →
      Shaped literal (.one .assign) [⟨.assign, offset, text, [name, value]⟩]
  | print {offset text value} :
      Shaped literal (.one .expr) [value] →
      Shaped literal (.one .print) [⟨.print, offset, text, [value]⟩]
  | branch {offset text condition yes} :
      Shaped literal (.one .expr) [condition] → Shaped literal (.one .block) [yes] →
      Shaped literal (.one .branch) [⟨.branch, offset, text, [condition, yes]⟩]
  | branchElse {offset text condition yes no} :
      Shaped literal (.one .expr) [condition] → Shaped literal (.one .block) [yes] →
      Shaped literal (.one .block) [no] →
      Shaped literal (.one .branch) [⟨.branch, offset, text, [condition, yes, no]⟩]
  | loop {offset text condition body} :
      Shaped literal (.one .expr) [condition] → Shaped literal (.one .block) [body] →
      Shaped literal (.one .loop) [⟨.loop, offset, text, [condition, body]⟩]
  | block {offset text stmts} :
      Shaped literal .stmts stmts → Shaped literal (.one .block) [⟨.block, offset, text, stmts⟩]
  | expr {offset text first others} :
      Shaped literal (.one .chain) [first] → Shaped literal .comparisons others →
      Shaped literal (.one .expr) [⟨.expr, offset, text, first :: others⟩]
  | chain {offset text items} :
      Shaped literal .chain items → Shaped literal (.one .chain) [⟨.chain, offset, text, items⟩]
  | compare {op offset text} :
      Shaped literal (.one (.compare op)) [⟨.compare op, offset, text, []⟩]
  | arith {op offset text} : Shaped literal (.one (.arith op)) [⟨.arith op, offset, text, []⟩]
  | negation {offset text} : Shaped literal (.one .negation) [⟨.negation, offset, text, []⟩]
  | int {offset digits} :
      literal offset digits → Shaped literal (.one .int) [⟨.int, offset, digits, []⟩]
  | str {offset text} : Sliceable text → Shaped literal (.one .str) [⟨.str, offset, text, []⟩]
  | bool {value offset text} : Shaped literal (.one (.bool value)) [⟨.bool value, offset, text, []⟩]
  | ident {offset text} : Shaped literal (.one .ident) [⟨.ident, offset, text, []⟩]
  | reserved {offset text} : Shaped literal (.one .reserved) [⟨.reserved, offset, text, []⟩]
  | printWord {offset text} : Shaped literal (.one .printWord) [⟨.printWord, offset, text, []⟩]
  | noStmts : Shaped literal .stmts []
  | moreStmts {first others} :
      Shaped literal (.one .stmt) [first] → Shaped literal .stmts others →
      Shaped literal .stmts (first :: others)
  | noComparisons : Shaped literal .comparisons []
  | moreComparisons {op sign right others} :
      Shaped literal (.one (.compare op)) [sign] → Shaped literal (.one .chain) [right] →
      Shaped literal .comparisons others → Shaped literal .comparisons (sign :: right :: others)
  | lastOperand {rule value} :
      rule ∈ operandRules → Shaped literal (.one rule) [value] → Shaped literal .chain [value]
  | moreNegations {sign items} :
      Shaped literal (.one .negation) [sign] → Shaped literal .chain items →
      Shaped literal .chain (sign :: items)
  | moreOperands {rule op value sign items} :
      rule ∈ operandRules → Shaped literal (.one rule) [value] →
      Shaped literal (.one (.arith op)) [sign] → Shaped literal .chain items →
      Shaped literal .chain (value :: sign :: items)

/-! ## Building from well-shaped nodes -/

/-- Nodes become a tree with some property, unless a literal among them is no word; then that
literal is as the shape says. -/
def Settles {Tree : Type} (literal : Nat → List Char → Prop) (holds : Tree → Prop) :
    Except TreeError Tree → Prop
  | .ok tree => holds tree
  | .error (.oversized offset digits) => literal offset digits ∧ intOfDigits? digits = none
  | .error (.misshapen _) => False

namespace Settles

variable {Tree Other : Type} {literal : Nat → List Char → Prop} {holds : Tree → Prop}
  {other : Other → Prop} {outcome : Except TreeError Tree}

theorem bind {next : Tree → Except TreeError Other} (houtcome : Settles literal holds outcome)
    (hnext : ∀ tree, holds tree → Settles literal other (next tree)) :
    Settles literal other (outcome >>= next) := by
  rcases outcome with (rule | ⟨offset, digits⟩) | tree
  · exact houtcome
  · exact houtcome
  · exact hnext tree houtcome

/-- What is made of a tree does not matter if nothing is claimed of it. -/
theorem map (houtcome : Settles literal holds outcome) (build : Tree → Other) :
    Settles literal (fun _ => True) (outcome.map build) := by
  rcases outcome with (rule | ⟨offset, digits⟩) | tree
  · exact houtcome
  · exact houtcome
  · trivial

theorem ok {tree : Tree} (houtcome : outcome = .ok tree) :
    Settles literal (· = tree) outcome := by
  subst houtcome
  exact rfl

end Settles

variable {literal : Nat → List Char → Prop}

theorem two_le_length_of_sliceable {text : List Char} (htext : Sliceable text) :
    2 ≤ text.length := by
  obtain ⟨hbytes, hfirst, -⟩ := htext
  rcases text with _ | ⟨head, _ | ⟨next, text⟩⟩
  · simp [Text.byteLength] at hbytes
  · -- A single character of one byte leaves no second byte.
    simp only [Text.charsWithin?] at hfirst
    split at hfirst
    next hsize =>
      simp only [Text.byteLength] at hbytes
      omega
    next => cases hfirst
  · simp

/-- What is built from well-shaped nodes. -/
def Part.Builds (literal : Nat → List Char → Prop) : Part → List (Node Rule) → Prop
  | .one .expr, [node] => Settles literal (fun _ => True) (Expr.ofNode node)
  | .one .chain, [node] => Settles literal (fun _ => True) (Expr.ofChain node)
  | .one .stmt, [node] => node.rule = .stmt ∧ Settles literal (fun _ => True) (Stmt.ofNode node)
  | .one .block, [node] => Settles literal (fun _ => True) (Stmt.ofBlock node)
  | .one .assign, [node] | .one .print, [node] | .one .branch, [node] | .one .loop, [node] =>
      Settles literal (fun _ => True) (Stmt.ofForm node)
  | .stmts, nodes =>
      (∀ node ∈ nodes, node.rule = .stmt) ∧ Settles literal (fun _ => True) (Stmt.ofNodes nodes)
  | .comparisons, nodes =>
      ∀ left, Settles literal (fun _ => True) (Expr.ofComparisons left nodes)
  | .chain, nodes =>
      Settles literal (fun items => ∃ first links, items = Factor.items first ++ Links.items links)
        (Expr.ofItems nodes)
  | _, _ => True

/-- An operand is an item of a chain. -/
theorem settles_ofItem {rule : Rule} {node : Node Rule} (hrule : rule ∈ operandRules)
    (hshaped : Shaped literal (.one rule) [node])
    (hbuilds : Part.Builds literal (.one rule) [node]) :
    Settles literal (fun item => ∃ value, item = .operand value) (Expr.ofItem node) := by
  cases hshaped with
  | int hliteral =>
      simp only [Expr.ofItem]
      cases hword : intOfDigits? _ with
      | none => exact ⟨hliteral, hword⟩
      | some value => exact ⟨_, rfl⟩
  | str htext =>
      simp only [Expr.ofItem, unquote?, if_pos (two_le_length_of_sliceable htext)]
      exact ⟨_, rfl⟩
  | bool => exact ⟨_, rfl⟩
  | ident => exact ⟨_, rfl⟩
  | expr => exact Settles.bind hbuilds fun value _ => ⟨value, rfl⟩
  | _ => simp [operandRules] at hrule

theorem settles_ofItems_cons {node : Node Rule} {others : List (Node Rule)}
    {first : ChainItem → Prop} {rest whole : List ChainItem → Prop}
    (hnode : Settles literal first (Expr.ofItem node))
    (hothers : Settles literal rest (Expr.ofItems others))
    (hwhole : ∀ item items, first item → rest items → whole (item :: items)) :
    Settles literal whole (Expr.ofItems (node :: others)) :=
  hnode.bind fun item hitem => hothers.bind fun items hitems => hwhole item items hitem hitems

theorem Shaped.builds {part : Part} {nodes : List (Node Rule)}
    (hshaped : Shaped literal part nodes) : part.Builds literal nodes := by
  induction hshaped with
  | stmt hrule _ ih =>
      refine ⟨rfl, ?_⟩
      simp only [formRules, List.mem_cons, List.not_mem_nil, or_false] at hrule
      rcases hrule with rfl | rfl | rfl | rfl <;> exact ih
  | assign hname _ _ ih =>
      cases hname
      exact ih.bind fun value _ => trivial
  | print _ ih => exact ih.bind fun value _ => trivial
  | branch _ _ ihcondition ihyes | loop _ _ ihcondition ihyes =>
      exact ihcondition.bind fun condition _ => ihyes.bind fun yes _ => trivial
  | branchElse _ _ _ ihcondition ihyes ihno =>
      exact ihcondition.bind fun condition _ =>
        ihyes.bind fun yes _ => ihno.bind fun no _ => trivial
  | block _ ih => exact ih.2
  | expr _ _ ihfirst ihothers => exact ihfirst.bind fun left _ => ihothers left
  | chain _ ih =>
      refine ih.bind ?_
      rintro _ ⟨first, links, rfl⟩
      rw [Chain.tree?_items]
      trivial
  | noStmts => exact ⟨by simp, trivial⟩
  | moreStmts _ _ ihfirst ihothers =>
      refine ⟨by simpa using ⟨ihfirst.1, ihothers.1⟩, ?_⟩
      exact ihfirst.2.bind fun stmt _ => ihothers.2.bind fun block _ => trivial
  | noComparisons => exact fun left => trivial
  | moreComparisons hsign _ _ _ ihright ihothers =>
      cases hsign
      exact fun left => ihright.bind fun right _ => ihothers _
  | lastOperand hrule hvalue ih =>
      refine settles_ofItems_cons (settles_ofItem hrule hvalue ih) (Settles.ok rfl) ?_
      rintro _ _ ⟨value, rfl⟩ rfl
      exact ⟨⟨0, value⟩, [], rfl⟩
  | moreNegations hsign _ _ ih =>
      cases hsign
      refine settles_ofItems_cons (Settles.ok rfl) ih ?_
      rintro _ _ rfl ⟨⟨count, value⟩, links, rfl⟩
      exact ⟨⟨count + 1, value⟩, links, rfl⟩
  | @moreOperands _ op _ _ items hrule hvalue hsign _ ihvalue _ ih =>
      cases hsign with
      | @arith _ offset text =>
          have hlinks : Settles literal (fun items => ∃ links, items = Links.items links)
              (Expr.ofItems (⟨.arith op, offset, text, []⟩ :: items)) := by
            refine settles_ofItems_cons (Settles.ok rfl) ih ?_
            rintro _ _ rfl ⟨first, links, rfl⟩
            exact ⟨(op, first) :: links, (Links.items_cons op first links).symm⟩
          refine settles_ofItems_cons (settles_ofItem hrule hvalue ihvalue) hlinks ?_
          rintro _ _ ⟨value, rfl⟩ ⟨links, rfl⟩
          exact ⟨⟨0, value⟩, links, rfl⟩
  | _ => trivial

/-! ## The shape of what is read -/

/-- A single node that has its shape. -/
def Leaf (literal : Nat → List Char → Prop) (rule : Rule) (node : Node Rule) : Prop :=
  Shaped literal (.one rule) [node]

theorem shaped_stmts_of_fits {nodes : List (Node Rule)}
    (hfits : (Peg.star (.enter .stmt)).Fits (Leaf literal) nodes) :
    Shaped literal .stmts nodes := by
  obtain ⟨parts, hparts, rfl⟩ := hfits
  induction parts with
  | nil => exact .noStmts
  | cons part parts ih =>
      obtain ⟨⟨node, hnode, rfl⟩, hothers⟩ := List.forall_mem_cons.mp hparts
      exact .moreStmts hnode (ih hothers)

theorem exists_op_of_comparison_fits {nodes : List (Node Rule)}
    (hfits : comparison.Fits (Leaf literal) nodes) :
    ∃ op sign, Shaped literal (.one (.compare op)) [sign] ∧ nodes = [sign] := by
  rcases hfits with hfits | hfits | hfits | hfits | hfits
  all_goals
    obtain ⟨sign, hsign, rfl⟩ := hfits
    exact ⟨_, sign, hsign, rfl⟩

theorem exists_op_of_arithmetic_fits {nodes : List (Node Rule)}
    (hfits : arithmetic.Fits (Leaf literal) nodes) :
    ∃ op sign, Shaped literal (.one (.arith op)) [sign] ∧ nodes = [sign] := by
  rcases hfits with hfits | hfits | hfits | hfits | hfits
  all_goals
    obtain ⟨sign, hsign, rfl⟩ := hfits
    exact ⟨_, sign, hsign, rfl⟩

theorem exists_rule_of_operand_fits {nodes : List (Node Rule)}
    (hfits : operand.Fits (Leaf literal) nodes) :
    ∃ rule ∈ operandRules, ∃ value, Shaped literal (.one rule) [value] ∧ nodes = [value] := by
  rcases hfits with hfits | hfits | hfits | hfits | hfits | hfits
  case inr.inr.inr.inr.inr =>
    obtain ⟨_, _, rfl, ⟨_, _, ⟨value, hvalue, rfl⟩, rfl, rfl⟩, rfl⟩ := hfits
    exact ⟨.expr, by decide, value, hvalue, rfl⟩
  all_goals
    obtain ⟨value, hvalue, rfl⟩ := hfits
    exact ⟨_, by decide, value, hvalue, rfl⟩

theorem shaped_comparisons_of_fits {nodes : List (Node Rule)}
    (hfits : (Peg.star (all [comparison, .enter .chain])).Fits (Leaf literal) nodes) :
    Shaped literal .comparisons nodes := by
  obtain ⟨parts, hparts, rfl⟩ := hfits
  induction parts with
  | nil => exact .noComparisons
  | cons part parts ih =>
      obtain ⟨⟨_, _, hfirst, ⟨right, hright, rfl⟩, rfl⟩, hothers⟩ := List.forall_mem_cons.mp hparts
      obtain ⟨op, sign, hsign, rfl⟩ := exists_op_of_comparison_fits hfirst
      exact .moreComparisons hsign hright (ih hothers)

/-- Negations in front of a chain leave it a chain. -/
theorem Shaped.append_negations {negations items : List (Node Rule)}
    (hfits : (Peg.star (.enter .negation)).Fits (Leaf literal) negations)
    (hitems : Shaped literal .chain items) : Shaped literal .chain (negations ++ items) := by
  obtain ⟨parts, hparts, rfl⟩ := hfits
  induction parts with
  | nil => exact hitems
  | cons part parts ih =>
      obtain ⟨⟨sign, hsign, rfl⟩, hothers⟩ := List.forall_mem_cons.mp hparts
      exact .moreNegations hsign (ih hothers)

/-- What follows the first operand of a chain has an operator first. -/
theorem shaped_chain_of_fits {value : Node Rule} {rule : Rule} {links : List (Node Rule)}
    (hrule : rule ∈ operandRules) (hvalue : Shaped literal (.one rule) [value])
    (hfits : (Peg.star (all [arithmetic, .star (.enter .negation), operand])).Fits (Leaf literal)
      links) :
    Shaped literal .chain (value :: links) := by
  obtain ⟨parts, hparts, rfl⟩ := hfits
  induction parts generalizing rule value with
  | nil => exact .lastOperand hrule hvalue
  | cons part parts ih =>
      obtain ⟨⟨_, _, hfirst, ⟨negations, _, hnegations, hlast, rfl⟩, rfl⟩, hothers⟩ :=
        List.forall_mem_cons.mp hparts
      obtain ⟨op, sign, hsign, rfl⟩ := exists_op_of_arithmetic_fits hfirst
      obtain ⟨nextRule, hnextRule, next, hnext, rfl⟩ := exists_rule_of_operand_fits hlast
      have hchain := Shaped.append_negations hnegations (ih hnextRule hnext hothers)
      simpa using Shaped.moreOperands hrule hvalue hsign hchain

/-- Children that have the form of a rule make a node of this rule that has its shape. -/
theorem leaf_of_fits {rule : Rule} {offset : Nat} {text : List Char} {children : List (Node Rule)}
    (hrule : isToken rule = false) (hfits : (body rule).Fits (Leaf literal) children) :
    Leaf literal rule ⟨rule, offset, text, children⟩ := by
  cases rule with
  | finish =>
      obtain rfl : children = [] := hfits
      exact .finish
  | program =>
      obtain ⟨_, _, rfl, ⟨stmts, _, hstmts, ⟨stop, hstop, rfl⟩, rfl⟩, rfl⟩ := hfits
      exact .program (shaped_stmts_of_fits hstmts) hstop
  | wholeExpr =>
      obtain ⟨_, _, rfl, ⟨_, _, ⟨value, hvalue, rfl⟩, ⟨stop, hstop, rfl⟩, rfl⟩, rfl⟩ := hfits
      exact .wholeExpr hvalue hstop
  | wholeStmt =>
      obtain ⟨_, _, rfl, ⟨_, _, ⟨stmt, hstmt, rfl⟩, ⟨stop, hstop, rfl⟩, rfl⟩, rfl⟩ := hfits
      exact .wholeStmt hstmt hstop
  | stmt =>
      rcases hfits with hfits | hfits | hfits | hfits
      all_goals
        obtain ⟨form, hform, rfl⟩ := hfits
        exact .stmt (by decide) hform
  | assign =>
      obtain ⟨_, _, ⟨name, hname, rfl⟩, ⟨_, _, rfl, ⟨value, hvalue, rfl⟩, rfl⟩, rfl⟩ := hfits
      exact .assign hname hvalue
  | print =>
      obtain ⟨_, _, rfl, ⟨_, _, rfl, ⟨value, hvalue, rfl⟩, rfl⟩, rfl⟩ := hfits
      exact .print hvalue
  | branch =>
      obtain ⟨_, _, rfl, ⟨_, _, rfl, ⟨_, _, ⟨condition, hcondition, rfl⟩, ⟨_, _, rfl,
        ⟨_, _, ⟨yes, hyes, rfl⟩, helse, rfl⟩, rfl⟩, rfl⟩, rfl⟩, rfl⟩ := hfits
      rcases helse with ⟨_, _, rfl, ⟨no, hno, rfl⟩, rfl⟩ | rfl
      · exact .branchElse hcondition hyes hno
      · exact .branch hcondition hyes
  | loop =>
      obtain ⟨_, _, rfl, ⟨_, _, rfl, ⟨_, _, ⟨condition, hcondition, rfl⟩, ⟨_, _, rfl,
        ⟨body, hbody, rfl⟩, rfl⟩, rfl⟩, rfl⟩, rfl⟩ := hfits
      exact .loop hcondition hbody
  | block =>
      obtain ⟨_, _, rfl, ⟨stmts, _, hstmts, rfl, rfl⟩, rfl⟩ := hfits
      rw [List.nil_append, List.append_nil]
      exact .block (shaped_stmts_of_fits hstmts)
  | expr =>
      obtain ⟨_, others, ⟨first, hfirst, rfl⟩, hothers, rfl⟩ := hfits
      exact .expr hfirst (shaped_comparisons_of_fits hothers)
  | chain =>
      obtain ⟨negations, _, hnegations, ⟨_, links, hfirst, hlinks, rfl⟩, rfl⟩ := hfits
      obtain ⟨rule, hrule, value, hvalue, rfl⟩ := exists_rule_of_operand_fits hfirst
      exact .chain (Shaped.append_negations hnegations (shaped_chain_of_fits hrule hvalue hlinks))
  | compare op =>
      obtain rfl : children = [] := by cases op <;> exact hfits
      exact .compare
  | arith op =>
      obtain rfl : children = [] := by cases op <;> exact hfits
      exact .arith
  | negation =>
      obtain rfl : children = [] := hfits
      exact .negation
  | _ => cases hrule

/-- The slice between the quotes of a string literal is made of whole characters. -/
theorem sliceable_of_quotes (inner : List Char) : Sliceable ('"' :: inner ++ ['"']) := by
  have hquote : Text.byteLength ['"'] = 1 := by decide
  have hopen : Text.byteLength ('"' :: inner) = 1 + Text.byteLength inner :=
    Text.byteLength_append ['"'] inner
  have hclose : Text.byteLength ('"' :: inner ++ ['"']) = Text.byteLength ('"' :: inner) + 1 :=
    Text.byteLength_append ('"' :: inner) ['"']
  refine ⟨by omega, ?_, ?_⟩
  · rw [← hquote]
    exact Text.charsWithin?_byteLength_append ['"'] (inner ++ ['"'])
  · rw [hclose, Nat.add_sub_cancel, Text.charsWithin?_byteLength_append]
    simp

/-- The digits that stand at a place of a text, all of them. -/
def LiteralIn (source : List Char) (offset : Nat) (digits : List Char) : Prop :=
  digits ≠ [] ∧ ∃ rest, WholeRun Char.isDigit (source.drop offset) digits rest

theorem leaf_of_find {source : List Char} {rule : Rule} {cursor stop : Cursor} {node : Node Rule}
    (hrule : isToken rule = true) (hcursor : cursor.In source)
    (hfound : language.find false rule cursor = some ⟨[node], stop⟩) :
    Leaf (LiteralIn source) rule node := by
  cases rule with
  | int =>
      obtain ⟨digits, rest, hrun, hnil, hnode⟩ := find_int_eq_some_iff.mp hfound
      cases hnode
      obtain ⟨count, -, -, rfl⟩ := hcursor
      rw [Cursor.start, Cursor.advance, Nat.zero_add] at hrun ⊢
      exact .int ⟨hnil, rest, hrun⟩
  | str =>
      obtain ⟨inner, rest, -, -, hnode⟩ := find_str_eq_some_iff.mp hfound
      cases hnode
      exact .str (sliceable_of_quotes inner)
  | bool value =>
      obtain ⟨rest, -, hnode⟩ := find_bool_eq_some_iff.mp hfound
      cases hnode
      exact .bool
  | ident =>
      obtain ⟨name, rest, -, -, hnode⟩ := find_ident_eq_some_iff.mp hfound
      cases hnode
      exact .ident
  | printWord =>
      obtain ⟨rest, -, hnode⟩ := find_printWord_eq_some_iff.mp hfound
      cases hnode
      exact .printWord
  | reserved =>
      have hscan := @scan_lone_words reservedWords (by decide) (by decide) cursor
      rw [@find_eq_leaf .reserved _ _ _ _ hscan, Option.ite_none_right_eq_some,
        Option.some_inj] at hfound
      obtain ⟨-, hnode⟩ := hfound
      cases hnode
      exact .reserved
  | _ => cases hrule

namespace Entry

/-- A well-shaped node of an entry becomes a tree, unless a literal is no word. -/
theorem settles_of_shaped (entry : Entry) {node : Node Rule}
    (hshaped : Shaped literal (.one entry.rule) [node]) :
    Settles literal (fun _ => True) (entry.build node.children) := by
  cases entry with
  | program =>
      cases hshaped with
      | program hstmts hstop =>
          cases hstop
          have hbuilds := hstmts.builds
          rw [build, Node.children, Program.ofNodes_append_finish hbuilds.1]
          exact Settles.map hbuilds.2 _
  | stmt =>
      cases hshaped with
      | wholeStmt hstmt => exact Settles.map hstmt.builds.2 _
  | expr =>
      cases hshaped with
      | wholeExpr hvalue => exact Settles.map hvalue.builds _

/-- Whatever the grammar matches has the shape that its tree is built from. -/
theorem shaped_of_match {entry : Entry} {text : List Char} {node : Node Rule}
    (hmatch : language.match? entry.rule text = .ok node) :
    Shaped (LiteralIn text) (.one entry.rule) [node] := by
  obtain ⟨stop, hfound⟩ := (Grammar.match?_eq_ok_iff ranked).mp hmatch
  obtain ⟨leaf, hleaf, hnode⟩ := ranked.exists_leaf_of_run
    (fun _ _ _ _ hrule hcursor hfound => leaf_of_find hrule hcursor hfound)
    (fun _ _ _ _ hrule hfits => leaf_of_fits hrule hfits) (.refl _) hfound
  cases hnode
  exact hleaf

/-- Whatever the grammar matches has the shape that its tree is built from, so it becomes a tree,
or one of its integer literals is reported to be no word. -/
theorem check_of_match (entry : Entry) (source : String) (node : Node Rule)
    (hmatch : language.match? entry.rule source.toList = .ok node) :
    Shaped (LiteralIn source.toList) (.one entry.rule) [node] ∧
      (entry.check source = .ok () ∨
        ∃ offset digits, LiteralIn source.toList offset digits ∧ intOfDigits? digits = none ∧
          entry.check source = .error (.ofTreeError source (.oversized offset digits))) := by
  have hshaped := shaped_of_match hmatch
  refine ⟨hshaped, ?_⟩
  have hsettles := entry.settles_of_shaped hshaped
  rw [check_eq, hmatch]
  rcases hbuild : entry.build node.children with (rule | ⟨offset, digits⟩) | ⟨⟩
  · rw [hbuild] at hsettles
    exact hsettles.elim
  · rw [hbuild] at hsettles
    exact .inr ⟨offset, digits, hsettles.1, hsettles.2, by simp only [hbuild]; rfl⟩
  · exact .inl (by simp only [hbuild]; rfl)

/-- A string of more bytes than characters in front of a literal that is no word. -/
theorem check_of_match_oversized :
    ∃ node, language.match? Entry.stmt.rule "p \"é\" + 99999999999999999999".toList = .ok node ∧
      Shaped (LiteralIn "p \"é\" + 99999999999999999999".toList) (.one Entry.stmt.rule) [node] ∧
        (Entry.stmt.check "p \"é\" + 99999999999999999999" = .ok () ∨
          ∃ offset digits, LiteralIn "p \"é\" + 99999999999999999999".toList offset digits ∧
            intOfDigits? digits = none ∧ Entry.stmt.check "p \"é\" + 99999999999999999999" =
              .error (.ofTreeError "p \"é\" + 99999999999999999999"
                (.oversized offset digits))) := by
  obtain ⟨node, hmatch⟩ := exists_eq_ok_of_isSome (by decide +kernel :
    (language.match? Entry.stmt.rule "p \"é\" + 99999999999999999999".toList).toOption.isSome)
  exact ⟨node, hmatch, check_of_match .stmt "p \"é\" + 99999999999999999999" node hmatch⟩

end Entry

end PlZero
