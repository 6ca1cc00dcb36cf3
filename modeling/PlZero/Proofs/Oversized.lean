import PlZero.Proofs.Coordinates
import PlZero.Proofs.Expected
import PlZero.Proofs.Grammar.Integers
import PlZero.Proofs.Stmt.Parts

/-! # Integers that are no words

A text that matches is read unless one of its integers is greater than every word, and then the
error is about the first of these. Otherwise the integers of the tree are those of the text. A
text that does not match is told to be so, whatever its integers.
-/

namespace PlZero

open Peg (Node)

/-! ## Integers of trees -/

/-- The integers among some expressions. -/
def integersOf (exprs : List Expr) : List Int64 :=
  exprs.filterMap fun
    | .int value => some value
    | _ => none

@[simp]
theorem integersOf_append (first next : List Expr) :
    integersOf (first ++ next) = integersOf first ++ integersOf next :=
  List.filterMap_append

/-- The integers of an expression, from left to right. -/
def Expr.integers (value : Expr) : List Int64 := integersOf value.parts

@[simp]
theorem Expr.integers_binary (left : Expr) (op : BinaryOp) (right : Expr) :
    (binary left op right).integers = left.integers ++ right.integers :=
  integersOf_append left.parts right.parts

/-- The integers of the members of a chain. -/
def integersOfItems (items : List ChainItem) : List Int64 :=
  items.flatMap fun
    | .operand value => value.integers
    | .infixOp _ | .negation => []

theorem integersOfItems_append (first next : List ChainItem) :
    integersOfItems (first ++ next) = integersOfItems first ++ integersOfItems next :=
  List.flatMap_append

/-- Climbing takes the integers of the items into the tree, in their order. -/
theorem Chain.integers_climb_extend (fuel : Nat) :
    (∀ {floor items value rest}, climb fuel floor items = some (value, rest) →
      integersOfItems items = value.integers ++ integersOfItems rest) ∧
    ∀ {floor left items value rest}, extend fuel floor left items = some (value, rest) →
      left.integers ++ integersOfItems items = value.integers ++ integersOfItems rest := by
  induction fuel with
  | zero =>
      refine ⟨nofun, fun {floor left items value rest} hextend => ?_⟩
      cases items with
      | nil =>
          cases hextend
          rfl
      | cons item items => cases hextend
  | succ fuel ih =>
      constructor
      · intro floor items value rest hclimb
        cases items with
        | nil => cases hclimb
        | cons item items =>
            cases item with
            | operand left => exact ih.2 hclimb
            | infixOp op => cases hclimb
            | negation =>
                obtain ⟨⟨operand, others⟩, hoperand, hextend⟩ := Option.bind_eq_some_iff.mp hclimb
                have hrest := ih.2 (show extend fuel floor (.not operand) others = _ from hextend)
                exact (ih.1 hoperand).trans hrest
      · intro floor left items value rest hextend
        cases items with
        | nil =>
            cases hextend
            rfl
        | cons item items =>
            cases item with
            | operand right => cases hextend
            | negation => cases hextend
            | infixOp op =>
                rw [extend] at hextend
                split at hextend
                next =>
                  obtain ⟨⟨right, others⟩, hright, hextend⟩ := Option.bind_eq_some_iff.mp hextend
                  have hrest := ih.2 (show extend fuel floor (.binary left (.arith op) right)
                    others = _ from hextend)
                  rw [Expr.integers_binary, List.append_assoc] at hrest
                  exact (congrArg (left.integers ++ ·) (ih.1 hright)).trans hrest
                next =>
                  cases hextend
                  rfl

theorem Chain.integers_tree? {items : List ChainItem} {value : Expr}
    (htree : Chain.tree? items = some value) : value.integers = integersOfItems items := by
  unfold tree? at htree
  split at htree
  next result hclimb =>
    cases htree
    rw [(integers_climb_extend items.length).1 hclimb]
    exact (List.append_nil _).symm
  next => cases htree

/-! ## Trees from nodes -/

/-- Whether the digits of an integer make no word. -/
def isOversized (literal : Nat × List Char) : Bool := (intOfDigits? literal.2).isNone

theorem isOversized_iff {literal : Nat × List Char} :
    isOversized literal ↔ 2 ^ 63 - 1 < Text.decimal literal.2 := by
  unfold isOversized intOfDigits? wordOfInt?
  rw [Text.ofDigitChars_eq_decimal]
  simp only [Option.isNone_iff_eq_none, ite_eq_right_iff, reduceCtorEq, imp_false]
  rw [FitsWord, Int64.toInt_minValue, Int64.toInt_maxValue]
  omega

theorem toInt_of_intOfDigits? {digits : List Char} {value : Int64}
    (hvalue : intOfDigits? digits = some value) : value.toInt = Text.decimal digits := by
  unfold intOfDigits? wordOfInt? at hvalue
  split at hvalue
  next hfits =>
    cases hvalue
    rw [hfits.toInt_ofInt, Text.ofDigitChars_eq_decimal]
  next => cases hvalue

theorem map_toInt_eq {literals : List (Nat × List Char)} {values : List Int64}
    (hwords : literals.map (fun literal => intOfDigits? literal.2) = values.map some) :
    values.map Int64.toInt = literals.map fun literal => (Text.decimal literal.2 : Int) := by
  induction literals generalizing values with
  | nil =>
      cases values with
      | nil => rfl
      | cons value values => cases hwords
  | cons literal literals ih =>
      cases values with
      | nil => cases hwords
      | cons value values =>
          rw [List.map_cons, List.map_cons] at hwords ⊢
          obtain ⟨hvalue, hwords⟩ := List.cons_eq_cons.mp hwords
          rw [toInt_of_intOfDigits? hvalue, ih hwords]

/-- What is built has the integers of some literals, if all of them are words. Otherwise the first
one that is none is reported. Nothing is said of nodes without a shape. -/
def Reports {Tree : Type} (literals : List (Nat × List Char)) (holds : Tree → List Int64 → Prop) :
    Except TreeError Tree → Prop
  | .ok tree => ∃ values, literals.map (fun literal => intOfDigits? literal.2) = values.map some ∧
      holds tree values
  | .error (.oversized offset digits) => literals.find? isOversized = some (offset, digits)
  | .error (.misshapen _) => True

namespace Reports

variable {Tree Other : Type} {literals more : List (Nat × List Char)}
  {holds : Tree → List Int64 → Prop} {whole : Other → List Int64 → Prop}
  {outcome : Except TreeError Tree}

theorem find?_eq_none {values : List Int64}
    (hwords : literals.map (fun literal => intOfDigits? literal.2) = values.map some) :
    literals.find? isOversized = none := by
  rw [List.find?_eq_none]
  intro literal hliteral
  have hmem : intOfDigits? literal.2 ∈ values.map some := hwords ▸ List.mem_map_of_mem hliteral
  obtain ⟨value, -, hvalue⟩ := List.mem_map.mp hmem
  simp [isOversized, ← hvalue]

theorem bind {next : Tree → Except TreeError Other} (houtcome : Reports literals holds outcome)
    (hnext : ∀ tree values, holds tree values →
      Reports more (fun other extra => whole other (values ++ extra)) (next tree)) :
    Reports (literals ++ more) whole (outcome >>= next) := by
  rcases outcome with (rule | ⟨offset, digits⟩) | tree
  · trivial
  · have hfind : literals.find? isOversized = some (offset, digits) := houtcome
    change (literals ++ more).find? isOversized = some (offset, digits)
    rw [List.find?_append, hfind, Option.some_or]
  · obtain ⟨values, hwords, hholds⟩ := houtcome
    have hreports := hnext tree values hholds
    change Reports (literals ++ more) whole (next tree)
    rcases hresult : next tree with (rule | ⟨offset, digits⟩) | other
    · trivial
    · rw [hresult] at hreports
      change (literals ++ more).find? isOversized = some (offset, digits)
      rw [List.find?_append, find?_eq_none hwords, Option.none_or]
      exact hreports
    · rw [hresult] at hreports
      obtain ⟨extra, hmore, hwhole⟩ := hreports
      refine ⟨values ++ extra, ?_, hwhole⟩
      rw [List.map_append, List.map_append, hwords, hmore]

theorem map {build : Tree → Other} (houtcome : Reports literals holds outcome)
    (hbuild : ∀ tree values, holds tree values → whole (build tree) values) :
    Reports literals whole (outcome >>= fun tree => .ok (build tree)) := by
  rcases outcome with (rule | ⟨offset, digits⟩) | tree
  · trivial
  · exact houtcome
  · obtain ⟨values, hwords, hholds⟩ := houtcome
    exact ⟨values, hwords, hbuild tree values hholds⟩

end Reports

mutual

theorem Expr.reports_ofNodes (nodes : List (Node Rule)) :
    Reports (literalsOfNodes nodes) (fun value values => value.integers = values)
      (Expr.ofNodes nodes) := by
  cases nodes with
  | nil => trivial
  | cons first others =>
      rw [Expr.ofNodes, literalsOfNodes]
      refine (Expr.reports_ofChain first).bind fun left values hleft => ?_
      subst hleft
      exact Expr.reports_ofComparisons left others

theorem Expr.reports_ofComparisons (left : Expr) (nodes : List (Node Rule)) :
    Reports (literalsOfNodes nodes)
      (fun value values => value.integers = left.integers ++ values)
      (Expr.ofComparisons left nodes) := by
  unfold Expr.ofComparisons
  split
  next => exact ⟨[], rfl, (List.append_nil _).symm⟩
  next op offset text children right others =>
    rw [literalsOfNodes, literalsOfNode_eq_nil (.compare op) rfl nofun, literalsOfNodes]
    refine (Expr.reports_ofChain right).bind fun right values hright => ?_
    subst hright
    have hothers := Expr.reports_ofComparisons (.binary left (.compare op) right) others
    simpa only [Expr.integers_binary, List.append_assoc] using hothers
  next => trivial

theorem Expr.reports_ofChain (node : Node Rule) :
    Reports (literalsOfNode node) (fun value values => value.integers = values)
      (Expr.ofChain node) := by
  unfold Expr.ofChain
  split
  next offset text children =>
    rw [literalsOfNode_of_isPhrase rfl, ← List.append_nil (literalsOfNodes children)]
    refine (Expr.reports_ofItems children).bind fun items values hitems => ?_
    subst hitems
    cases htree : Chain.tree? items with
    | none => trivial
    | some value => exact ⟨[], rfl, (Chain.integers_tree? htree).trans (List.append_nil _).symm⟩
  next => trivial

theorem Expr.reports_ofItems (nodes : List (Node Rule)) :
    Reports (literalsOfNodes nodes) (fun items values => integersOfItems items = values)
      (Expr.ofItems nodes) := by
  cases nodes with
  | nil => exact ⟨[], rfl, rfl⟩
  | cons node others =>
      rw [Expr.ofItems, literalsOfNodes]
      refine (Expr.reports_ofItem node).bind fun item values hitem => ?_
      refine (Expr.reports_ofItems others).map fun items extra hitems => ?_
      subst hitem hitems
      exact integersOfItems_append [item] items

theorem Expr.reports_ofItem (node : Node Rule) :
    Reports (literalsOfNode node) (fun item values => integersOfItems [item] = values)
      (Expr.ofItem node) := by
  rcases node with ⟨rule, offset, text, children⟩
  cases rule with
  | int =>
      rw [literalsOfNode, if_pos rfl, ofItem]
      split
      next value hvalue => exact ⟨[value], by simp [hvalue], rfl⟩
      next hnone =>
        change [(offset, text)].find? isOversized = some (offset, text)
        simp [isOversized, hnone]
  | str =>
      rw [literalsOfNode_eq_nil .str rfl nofun, ofItem]
      split
      next => exact ⟨[], rfl, rfl⟩
      next => trivial
  | expr =>
      rw [literalsOfNode_of_isPhrase rfl, ofItem]
      refine (Expr.reports_ofNodes children).map fun value values hvalue => ?_
      subst hvalue
      exact List.flatMap_singleton _ _
  | arith op =>
      rw [literalsOfNode_eq_nil (.arith op) rfl nofun]
      exact ⟨[], rfl, rfl⟩
  | negation =>
      rw [literalsOfNode_eq_nil .negation rfl nofun]
      exact ⟨[], rfl, rfl⟩
  | bool value =>
      rw [literalsOfNode_eq_nil (.bool value) rfl nofun]
      exact ⟨[], rfl, rfl⟩
  | ident =>
      rw [literalsOfNode_eq_nil .ident rfl nofun]
      exact ⟨[], rfl, rfl⟩
  | _ => trivial

end

theorem Expr.reports_ofNode (node : Node Rule) :
    Reports (literalsOfNode node) (fun value values => value.integers = values)
      (Expr.ofNode node) := by
  unfold Expr.ofNode
  split
  next offset text children =>
    rw [literalsOfNode_of_isPhrase rfl]
    exact Expr.reports_ofNodes children
  next => trivial

theorem reports_nameOfNode (node : Node Rule) :
    Reports (literalsOfNode node) (fun _ values => values = []) (nameOfNode node) := by
  unfold nameOfNode
  split
  next =>
    rw [literalsOfNode_eq_nil .ident rfl nofun]
    exact ⟨[], rfl, rfl⟩
  next => trivial

mutual

theorem Stmt.reports_ofNode (node : Node Rule) :
    Reports (literalsOfNode node) (fun stmt values => integersOf stmt.exprs = values)
      (Stmt.ofNode node) := by
  unfold Stmt.ofNode
  split
  next offset text form =>
    rw [literalsOfNode_of_isPhrase rfl]
    simp only [literalsOfNodes, List.append_nil]
    exact Stmt.reports_ofForm form
  next => trivial

theorem Stmt.reports_ofForm (node : Node Rule) :
    Reports (literalsOfNode node) (fun stmt values => integersOf stmt.exprs = values)
      (Stmt.ofForm node) := by
  unfold Stmt.ofForm
  split
  next offset text name value =>
    rw [literalsOfNode_of_isPhrase rfl]
    simp only [literalsOfNodes, List.append_nil]
    refine (reports_nameOfNode name).bind fun name values hname => ?_
    refine (Expr.reports_ofNode value).map fun value values hvalue => ?_
    subst hname hvalue
    simp [Stmt.exprs, Stmt.parts, Stmt.subject, Expr.integers]
  next offset text value =>
    rw [literalsOfNode_of_isPhrase rfl]
    simp only [literalsOfNodes, List.append_nil]
    refine (Expr.reports_ofNode value).map fun value values hvalue => ?_
    subst hvalue
    simp [Stmt.exprs, Stmt.parts, Stmt.subject, Expr.integers]
  next offset text condition yes =>
    rw [literalsOfNode_of_isPhrase rfl]
    simp only [literalsOfNodes, List.append_nil]
    refine (Expr.reports_ofNode condition).bind fun condition values hcondition => ?_
    refine (Stmt.reports_ofBlock yes).map fun yes values hyes => ?_
    subst hcondition hyes
    simp [Stmt.exprs_branch, Expr.integers, Block.exprs, Block.parts]
  next offset text condition yes no =>
    rw [literalsOfNode_of_isPhrase rfl]
    simp only [literalsOfNodes, List.append_nil]
    refine (Expr.reports_ofNode condition).bind fun condition values hcondition => ?_
    refine (Stmt.reports_ofBlock yes).bind fun yes values hyes => ?_
    refine (Stmt.reports_ofBlock no).map fun no values hno => ?_
    subst hcondition hyes hno
    simp [Stmt.exprs_branch, Expr.integers]
  next offset text condition body =>
    rw [literalsOfNode_of_isPhrase rfl]
    simp only [literalsOfNodes, List.append_nil]
    refine (Expr.reports_ofNode condition).bind fun condition values hcondition => ?_
    refine (Stmt.reports_ofBlock body).map fun body values hbody => ?_
    subst hcondition hbody
    simp [Stmt.exprs_loop, Expr.integers]
  next => trivial

theorem Stmt.reports_ofBlock (node : Node Rule) :
    Reports (literalsOfNode node) (fun block values => integersOf (Block.exprs block) = values)
      (Stmt.ofBlock node) := by
  unfold Stmt.ofBlock
  split
  next offset text children =>
    rw [literalsOfNode_of_isPhrase rfl]
    exact Stmt.reports_ofNodes children
  next => trivial

theorem Stmt.reports_ofNodes (nodes : List (Node Rule)) :
    Reports (literalsOfNodes nodes) (fun block values => integersOf (Block.exprs block) = values)
      (Stmt.ofNodes nodes) := by
  cases nodes with
  | nil => exact ⟨[], rfl, rfl⟩
  | cons node others =>
      rw [Stmt.ofNodes, literalsOfNodes]
      refine (Stmt.reports_ofNode node).bind fun stmt values hstmt => ?_
      refine (Stmt.reports_ofNodes others).map fun block extra hblock => ?_
      subst hstmt hblock
      rw [Block.exprs_cons, integersOf_append]

end

theorem Program.reports_ofNodes (nodes : List (Node Rule)) :
    Reports (literalsOfNodes nodes)
      (fun program values => integersOf (Block.exprs program) = values)
      (Program.ofNodes nodes) := by
  induction nodes with
  | nil => exact ⟨[], rfl, rfl⟩
  | cons node others ih =>
      rw [literalsOfNodes]
      unfold Program.ofNodes
      split
      next heq => cases heq
      next heq =>
        cases heq
        rw [literalsOfNode_eq_nil .finish rfl nofun]
        exact ih
      next heq =>
        cases heq
        refine (Stmt.reports_ofNode node).bind fun stmt values hstmt => ?_
        refine ih.map fun block extra hblock => ?_
        subst hstmt hblock
        rw [Block.exprs_cons, integersOf_append]

/-! ## Whole texts -/

theorem parseBy_of_reports {Tree : Type} {rule : Rule}
    {build : List (Node Rule) → Except TreeError Tree} {source : String} {node : Node Rule}
    {literals : List (Nat × List Char)} {integers : Tree → List Int64}
    (hmatch : language.match? rule source.toList = .ok node)
    (hreports : Reports literals (fun tree values => integers tree = values)
      (build node.children))
    (hshape : ∀ other, build node.children ≠ .error (.misshapen other)) :
    (∃ values, literals.map (fun literal => intOfDigits? literal.2) = values.map some ∧
        (parseBy rule build source).map integers = .ok values) ∨
      ∃ offset digits, literals.find? isOversized = some (offset, digits) ∧
        (parseBy rule build source).map integers =
          .error (.ofTreeError source (.oversized offset digits)) := by
  unfold parseBy
  rw [hmatch]
  rcases hbuild : build node.children with (other | ⟨offset, digits⟩) | tree
  · exact absurd hbuild (hshape other)
  · rw [hbuild] at hreports
    refine .inr ⟨offset, digits, hreports, ?_⟩
    simp only [hbuild]
    rfl
  · rw [hbuild] at hreports
    obtain ⟨values, hwords, rfl⟩ := hreports
    refine .inl ⟨_, hwords, ?_⟩
    simp only [hbuild]
    rfl

theorem parseBy_eq_error {Tree : Type} {rule : Rule}
    {build : List (Node Rule) → Except TreeError Tree} {source : String} {trace : Peg.Trace Rule}
    (hmatch : language.match? rule source.toList = .error trace) :
    parseBy rule build source = .error (.ofTrace source trace) := by
  rw [parseBy, hmatch]

namespace Entry

variable {entry : Entry} {source : String} {node : Node Rule}

/-- The integers of the tree of a text, from left to right. -/
def integers : Entry → String → Except SyntaxError (List Int64)
  | .program, source =>
      (Program.parse source).map fun program => integersOf (Block.exprs program)
  | .stmt, source => (Stmt.parse source).map fun stmt => integersOf stmt.exprs
  | .expr, source => (Expr.parse source).map Expr.integers

/-- The integer nodes of a text that matches are the integers of the text. -/
theorem literalsOfNode_of_match {text : List Char}
    (hmatch : language.match? entry.rule text = .ok node) :
    literalsOfNode node = Text.integers text := by
  obtain ⟨stop, hfound⟩ := (Grammar.match?_eq_ok_iff Language.ranked).mp hmatch
  obtain ⟨inner, hinner, heq⟩ := Language.find_eq_some_iff.mp hfound
  have htoken : Language.isToken entry.rule = false := by cases entry <;> rfl
  rw [htoken, body_rule] at hinner
  obtain ⟨found, -, hstop, rfl⟩ := Language.scan_whole_eq_some_iff.mp hinner
  obtain ⟨hnodes, rfl⟩ := Peg.Found.mk.inj heq
  have hrule : node.rule = entry.rule := congrArg Node.rule (List.singleton_inj.mp hnodes)
  rw [← hrule] at hfound
  -- Nothing is left where the text has been read to its end.
  have hend : integersAt (language.gap false found.stop) = [] := by
    rw [integersAt, Language.rest_gap, Skips.nil_iff.mp hstop]
    rfl
  have htallies : Text.integers text = _ := accounted _ _ _ hfound
  rw [htallies, hend]
  simp [literalsOfNodes]

/-- The end of the text has no integers. -/
theorem literalsOfNodes_of_stop (node : Node Rule) {offset : Nat} {text : List Char}
    {children : List (Node Rule)} :
    literalsOfNodes [node, ⟨.finish, offset, text, children⟩] = literalsOfNode node := by
  simp [literalsOfNodes, literalsOfNode_eq_nil .finish rfl nofun]

theorem ne_misshapen_of_settles {literal : Nat → List Char → Prop} {Tree : Type}
    {holds : Unit → Prop} {outcome : Except TreeError Tree}
    (hsettles : Settles literal holds (outcome.map fun _ => ())) (rule : Rule) :
    outcome ≠ .error (.misshapen rule) := by
  rintro rfl
  exact hsettles

theorem integers_of_match (hmatch : language.match? entry.rule source.toList = .ok node) :
    (∃ values, (Text.integers source.toList).map (fun literal => intOfDigits? literal.2) =
        values.map some ∧ entry.integers source = .ok values) ∨
      ∃ offset digits, (Text.integers source.toList).find? isOversized = some (offset, digits) ∧
        entry.integers source = .error (.ofTreeError source (.oversized offset digits)) := by
  have hshaped := shaped_of_match hmatch
  have hsettles := entry.settles_of_shaped hshaped
  rw [← literalsOfNode_of_match hmatch]
  cases entry with
  | program =>
      cases hshaped with
      | program hstmts hstop =>
          rw [literalsOfNode_of_isPhrase rfl]
          exact parseBy_of_reports hmatch (Program.reports_ofNodes _)
            (ne_misshapen_of_settles hsettles)
  | stmt =>
      cases hshaped with
      | wholeStmt hstmt hstop =>
          cases hstop
          rw [literalsOfNode_of_isPhrase rfl, literalsOfNodes_of_stop]
          exact parseBy_of_reports hmatch (Stmt.reports_ofNode _) (ne_misshapen_of_settles hsettles)
  | expr =>
      cases hshaped with
      | wholeExpr hvalue hstop =>
          cases hstop
          rw [literalsOfNode_of_isPhrase rfl, literalsOfNodes_of_stop]
          exact parseBy_of_reports hmatch (Expr.reports_ofNode _) (ne_misshapen_of_settles hsettles)

theorem integers_of_not_accepts (haccepts : ¬ entry.Accepts source.toList) :
    ∃ trace, entry.integers source = .error (.ofTrace source trace) := by
  cases hmatch : language.match? entry.rule source.toList with
  | ok node => exact absurd ⟨node, hmatch⟩ haccepts
  | error trace =>
      refine ⟨trace, ?_⟩
      cases entry with
      | program | stmt | expr => exact congrArg (Except.map _) (parseBy_eq_error hmatch)

/-- An integer of a text is told in characters as it stands there. -/
theorem range?_of_integerAt {offset : Nat} {digits : List Char}
    (hinteger : Text.IntegerAt source.toList offset digits) :
    ((SyntaxError.ofTreeError source (.oversized offset digits)).diagnostic source).range? =
      some (offset, offset + digits.length) := by
  obtain ⟨before, after, rest, hsource, rfl, -, -, hrun, -⟩ := hinteger
  have hlength : source.toList.length = before.length + (digits.length + rest.length) := by
    rw [hsource, hrun.eq_append, List.length_append, List.length_append]
  have hplace : ∀ chars, chars ≤ source.toList.length → SyntaxError.placeIn source
      ((SyntaxError.ofTreeError source (.oversized before.length digits)).byteOffset chars) =
        chars := fun chars hchars => SyntaxError.placeIn_byteOffset hchars
  unfold SyntaxError.diagnostic Diagnostic.range?
  rw [SyntaxError.offset, hplace _ (by simp only [SyntaxError.ofTreeError]; omega),
    hplace _ (by simp only [SyntaxError.ofTreeError]; omega)]
  rfl

/-- A text that matches is read unless one of its integers is greater than every word, which zeros
in front of it do not matter to. Then the error is about the first of these, and else the integers
of the tree are those of the text. A text that does not match is told to be so, whatever its
integers. -/
theorem integers_exact (entry : Entry) (source : String) :
    Text.ListsIntegers source.toList (Text.integers source.toList) ∧
    (∀ zeros digits,
      Text.decimal (List.replicate zeros '0' ++ digits) = Text.decimal digits) ∧
    (entry.Accepts source.toList →
      ((∃ error, entry.integers source = .error error) ↔
        ∃ literal ∈ Text.integers source.toList, 2 ^ 63 - 1 < Text.decimal literal.2) ∧
      (∀ offset digits, (Text.integers source.toList).find?
          (fun literal => 2 ^ 63 - 1 < Text.decimal literal.2) = some (offset, digits) →
        ∃ error, entry.integers source = .error error ∧
          error.cause = .oversized (.ofList digits) ∧
          error.offset = Text.byteLength (source.toList.take offset) ∧
          (error.diagnostic source).range? = some (offset, offset + digits.length)) ∧
      ((∀ literal ∈ Text.integers source.toList, Text.decimal literal.2 ≤ 2 ^ 63 - 1) →
        ∃ values, entry.integers source = .ok values ∧ values.map Int64.toInt =
          (Text.integers source.toList).map fun literal => (Text.decimal literal.2 : Int))) ∧
    (¬ entry.Accepts source.toList →
      ∃ error expected, entry.integers source = .error error ∧
        error.cause = .unexpected expected) := by
  have hlists := Text.listsIntegers source.toList
  have hoversized : (fun literal : Nat × List Char =>
      decide (2 ^ 63 - 1 < Text.decimal literal.2)) = isOversized := by
    funext literal
    rw [Bool.eq_iff_iff, isOversized_iff, decide_eq_true_iff]
  refine ⟨hlists, Text.decimal_zeros_append, fun ⟨node, hmatch⟩ => ?_, fun haccepts => ?_⟩
  · rw [hoversized]
    obtain ⟨values, hwords, hvalues⟩ | ⟨offset, digits, hfind, herror⟩ :=
      integers_of_match hmatch
    · have hnone := Reports.find?_eq_none hwords
      have hfits := List.find?_eq_none.mp hnone
      refine ⟨⟨fun ⟨error, herror⟩ => ?_, fun ⟨literal, hliteral, hvalue⟩ => ?_⟩,
        fun offset digits hfind => ?_, fun _ => ⟨values, hvalues, map_toInt_eq hwords⟩⟩
      · rw [hvalues] at herror
        cases herror
      · exact absurd (isOversized_iff.mpr hvalue) (hfits literal hliteral)
      · rw [hnone] at hfind
        cases hfind
    · have hmem := List.mem_of_find?_eq_some hfind
      have hvalue := isOversized_iff.mp (List.find?_some hfind)
      refine ⟨⟨fun _ => ⟨_, hmem, hvalue⟩, fun _ => ⟨_, herror⟩⟩,
        fun place word hfirst => ?_, fun hwords => ?_⟩
      · cases hfind.symm.trans hfirst
        exact ⟨_, herror, rfl, rfl, range?_of_integerAt ((hlists.mem_iff offset digits).mp hmem)⟩
      · exact absurd hvalue (Nat.not_lt.mpr (hwords _ hmem))
  · obtain ⟨trace, htrace⟩ := integers_of_not_accepts haccepts
    exact ⟨_, _, htrace, rfl⟩

/-- Digits in a name and in a string, zeros in front of a word, a first integer that is no word in
front of another one, and a text that goes wrong behind such an integer. -/
theorem integers_exact_nested :
    let nested := "x1=007 if(9223372036854775808<\"9\")\x7bp 99999999999999999999\x7d"
    let fitting := "!(0009223372036854775807==1)"
    let broken := "p 99999999999999999999 +"
    (Entry.program.Accepts nested.toList ∧
      ∃ error, Entry.program.integers nested = .error error ∧
        error.cause = .oversized "9223372036854775808" ∧
        error.offset = Text.byteLength (nested.toList.take 10) ∧
        (error.diagnostic nested).range? = some (10, 29)) ∧
    (Entry.expr.Accepts fitting.toList ∧
      (∀ literal ∈ Text.integers fitting.toList, Text.decimal literal.2 ≤ 2 ^ 63 - 1) ∧
      ∃ values, Entry.expr.integers fitting = .ok values ∧ values.map Int64.toInt =
        (Text.integers fitting.toList).map fun literal => (Text.decimal literal.2 : Int)) ∧
    ¬ Entry.stmt.Accepts broken.toList ∧
      ∃ error expected, Entry.stmt.integers broken = .error error ∧
        error.cause = .unexpected expected := by
  intro nested fitting broken
  have hnested : Entry.program.Accepts nested.toList := exists_eq_ok_of_isSome (by decide +kernel)
  have hfirst : (Text.integers nested.toList).find?
      (fun literal => 2 ^ 63 - 1 < Text.decimal literal.2) =
        some (10, "9223372036854775808".toList) := by decide +kernel
  have hfitting : Entry.expr.Accepts fitting.toList := exists_eq_ok_of_isSome (by decide +kernel)
  have hwords : ∀ literal ∈ Text.integers fitting.toList,
      Text.decimal literal.2 ≤ 2 ^ 63 - 1 := by decide +kernel
  have hbroken : ¬ Entry.stmt.Accepts broken.toList := by
    rintro ⟨node, hmatch⟩
    obtain ⟨trace, htrace⟩ := exists_eq_error_of_isNone (by decide +kernel :
      (language.match? Entry.stmt.rule broken.toList).toOption.isNone)
    rw [hmatch] at htrace
    cases htrace
  exact ⟨⟨hnested, ((integers_exact .program nested).2.2.1 hnested).2.1 _ _ hfirst⟩,
    ⟨hfitting, hwords, ((integers_exact .expr fitting).2.2.1 hfitting).2.2 hwords⟩,
    hbroken, (integers_exact .stmt broken).2.2.2 hbroken⟩

end Entry

end PlZero
