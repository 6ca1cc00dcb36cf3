import PlZero.Parse
import PlZero.Proofs.Stmt.Completeness

/-! # Parsing is the grammar

Each entry gives a tree exactly for the texts that are phrases of the grammar as a whole, and the
tree is that of the phrase.
-/

namespace PlZero

open Peg PlZero.Language

namespace Language

/-- The end of the text is found where nothing is left. -/
theorem scan_finish_eq_some_iff {cursor : Cursor} {found : Found Rule} :
    language.scan false (.enter .finish) cursor = some found ↔
      cursor.rest = [] ∧ found = ⟨[⟨.finish, cursor.offset, [], []⟩], cursor⟩ := by
  have hbody : language.scan (isToken .finish) (body .finish) cursor =
      if cursor.rest.head?.any (fun _ => true) then none else some ⟨[], cursor⟩ :=
    scan_notAhead_char false _ cursor
  rw [Grammar.scan_enter, find_eq_map, hbody]
  rcases cursor with ⟨offset, _ | ⟨head, rest⟩⟩
  · simp [Grammar.enclose, eq_comm]
  · simp

/-- A whole text is blanks, an item, blanks and the end. -/
theorem scan_whole_eq_some_iff {item : Peg Rule} {cursor : Cursor} {found : Found Rule} :
    language.scan false (all [.empty, item, .enter .finish]) cursor = some found ↔
      ∃ inner, language.scan false item (language.gap false cursor) = some inner ∧
        Skips inner.stop.rest [] ∧
        found = ⟨inner.nodes ++ [⟨.finish, (language.gap false inner.stop).offset, [], []⟩],
          language.gap false inner.stop⟩ := by
  simp only [all, scan_seq_eq_some_iff, scan_finish_eq_some_iff, Skips.nil_iff, ← rest_gap]
  constructor
  · rintro ⟨_, _, hempty, ⟨inner, _, hinner, ⟨hrest, rfl⟩, rfl⟩, rfl⟩
    cases Option.some_inj.mp hempty
    exact ⟨inner, hinner, hrest, rfl⟩
  · rintro ⟨inner, hinner, hrest, rfl⟩
    exact ⟨_, _, rfl, ⟨inner, _, hinner, ⟨hrest, rfl⟩, rfl⟩, rfl⟩

end Language

/-- A text is parsed if its reading by a rule leaves nodes that become a tree. -/
theorem parseBy_eq_ok_iff {Tree : Type} {rule : Rule}
    {build : List (Node Rule) → Except TreeError Tree} {source : String} {tree : Tree} :
    parseBy rule build source = .ok tree ↔
      ∃ found, language.scan (isToken rule) (body rule) (.start source.toList) = some found ∧
        build found.nodes = .ok tree := by
  rw [parseBy]
  constructor
  · intro hparse
    split at hparse
    next => cases hparse
    next node hnode =>
      obtain ⟨stop, hfind⟩ := (Grammar.match?_eq_ok_iff ranked).mp hnode
      obtain ⟨found, hfound, heq⟩ := find_eq_some_iff.mp hfind
      obtain ⟨hnodes, -⟩ := Found.mk.inj heq
      obtain rfl := List.singleton_inj.mp hnodes
      refine ⟨found, hfound, ?_⟩
      rw [Node.children] at hparse
      cases hbuild : build found.nodes with
      | error error => rw [hbuild] at hparse; cases hparse
      | ok other =>
          rw [hbuild] at hparse
          rw [Except.ok.inj hparse]
  · rintro ⟨found, hfound, hbuild⟩
    have hnode := (Grammar.match?_eq_ok_iff ranked).mpr
      ⟨_, find_eq_some_iff.mpr ⟨found, hfound, rfl⟩⟩
    rw [hnode]
    simp only [Node.children, hbuild]
    rfl

theorem Yields.of_eq_ok {Tree : Type} {holds : Tree → Prop} {outcome : Except TreeError Tree}
    {tree : Tree} (houtcome : Yields holds outcome) (hok : outcome = .ok tree) : holds tree := by
  rwa [hok] at houtcome

theorem Skips.nil_of_skips {input rest : List Char} (hskips : Skips input rest)
    (hnil : Skips input []) : Skips rest [] := by
  rwa [Skips.nil_iff, ← hskips.dropWhile_eq, ← Skips.nil_iff]

/-- At the end of a text nothing comes next. -/
theorem nextChar?_eq_none {rest : List Char} (hnil : Skips rest []) : nextChar? rest = none := by
  rw [nextChar?, Skips.nil_iff.mp hnil, List.head?_nil]

theorem Expr.parse_eq_ok_iff {source : String} {tree : Expr} :
    Expr.parse source = .ok tree ↔ DerivesAll (Expr.Derives .comparison) source tree := by
  rw [Expr.parse, parseBy_eq_ok_iff]
  constructor
  · rintro ⟨found, hfound, hbuild⟩
    obtain ⟨inner, hinner, hnil, rfl⟩ := scan_whole_eq_some_iff.mp hfound
    obtain ⟨node, hnode, hyields⟩ := Expr.find_expr_sound (settled_gap _) hinner
    rw [hnode] at hbuild
    obtain ⟨rest, htree, hrest⟩ := hyields.of_eq_ok hbuild
    exact ⟨rest, htree.of_skips (skips_gap (.start _)), hrest.trans hnil⟩
  · rintro ⟨rest, htree, hnil⟩
    have havoids : Avoids operatorSigns rest := by simp [Avoids, nextChar?_eq_none hnil]
    obtain ⟨node, stop, hfound, hnode, hskips⟩ :=
      @Expr.scan_enter_expr_complete (.start source.toList) tree rest htree havoids
    exact ⟨_, scan_whole_eq_some_iff.mpr ⟨_, hfound, hskips.nil_of_skips hnil, rfl⟩, hnode⟩

theorem Stmt.parse_eq_ok_iff {source : String} {tree : Stmt} :
    Stmt.parse source = .ok tree ↔ DerivesAll Stmt.Derives source tree := by
  rw [Stmt.parse, parseBy_eq_ok_iff]
  constructor
  · rintro ⟨found, hfound, hbuild⟩
    obtain ⟨inner, hinner, hnil, rfl⟩ := scan_whole_eq_some_iff.mp hfound
    obtain ⟨node, hnode, -, hyields⟩ :=
      Stmt.find_stmt_sound _ _ _ (Nat.lt_succ_self _) (settled_gap _) hinner
    rw [hnode] at hbuild
    obtain ⟨rest, htree, hrest⟩ := hyields.of_eq_ok hbuild
    exact ⟨rest, htree.of_skips (skips_gap (.start _)), hrest.trans hnil⟩
  · rintro ⟨rest, htree, hnil⟩
    have hends : EndsStmt rest := .of_nextChar (by simp [nextChar?_eq_none hnil])
    obtain ⟨node, stop, hfound, -, hnode, hskips⟩ :=
      Stmt.reads_of_derives htree (.start source.toList) (.refl _) hends
    exact ⟨_, scan_whole_eq_some_iff.mpr ⟨_, hfound, hskips.nil_of_skips hnil, rfl⟩, hnode⟩

/-- The mark of the end of the text adds nothing to a program. -/
theorem Program.ofNodes_append_finish {nodes : List (Node Rule)} {offset : Nat} {text : List Char}
    (hrules : ∀ node ∈ nodes, node.rule = .stmt) :
    Program.ofNodes (nodes ++ [⟨.finish, offset, text, []⟩]) = Stmt.ofNodes nodes := by
  induction nodes with
  | nil => rfl
  | cons node nodes ih =>
      rcases node with ⟨rule, start, text, children⟩
      obtain rfl : rule = .stmt := hrules _ List.mem_cons_self
      rw [List.cons_append, Program.ofNodes, Stmt.ofNodes,
        ih fun node hnode => hrules node (List.mem_cons_of_mem _ hnode)]
      simp

theorem Program.parse_eq_ok_iff {source : String} {tree : Program} :
    Program.parse source = .ok tree ↔ DerivesAll Block.Derives source tree := by
  rw [Program.parse, parseBy_eq_ok_iff]
  constructor
  · rintro ⟨found, hfound, hbuild⟩
    obtain ⟨inner, hinner, hnil, rfl⟩ := scan_whole_eq_some_iff.mp hfound
    have hrepeats := (ranked.scan_star_iff rfl (settled_gap _)).mp hinner
    obtain ⟨hrules, hyields⟩ :=
      Stmt.stmts_sound (Stmt.find_stmt_sound _) (Nat.lt_succ_self _) hrepeats
    rw [ofNodes_append_finish hrules] at hbuild
    obtain ⟨rest, htree, hrest⟩ := hyields.of_eq_ok hbuild
    obtain ⟨stop, htree, hstop⟩ := htree.exists_of_skips (skips_gap _)
    exact ⟨stop, htree, hstop.trans (hrest.trans hnil)⟩
  · rintro ⟨rest, htree, hnil⟩
    obtain ⟨found, hfound, hrules, hnodes, hskips⟩ :=
      Stmt.readsAll_of_derives htree (.start source.toList) (.refl _)
        (by simp [nextChar?_eq_none hnil])
    obtain ⟨stop, hstar, -, hstop⟩ := scan_star_of_repeats rfl hfound
    refine ⟨_, scan_whole_eq_some_iff.mpr
      ⟨_, hstar, (hskips.trans hstop).nil_of_skips hnil, rfl⟩, ?_⟩
    rw [ofNodes_append_finish hrules, hnodes]

theorem exists_eq_ok_of_isSome {Error Tree : Type} {outcome : Except Error Tree}
    (hsome : outcome.toOption.isSome) : ∃ tree, outcome = .ok tree := by
  cases outcome with
  | error error => cases hsome
  | ok tree => exact ⟨tree, rfl⟩

theorem exists_eq_error_of_isNone {Error Tree : Type} {outcome : Except Error Tree}
    (hnone : outcome.toOption.isNone) : ∃ error, outcome = .error error := by
  cases outcome with
  | error error => exact ⟨error, rfl⟩
  | ok tree => cases hnone

/-- If parsing gives the trees of phrases, no text has two of them. -/
theorem unambiguous_of_parse {Tree : Type} {parse : String → Except SyntaxError Tree}
    {derives : List Char → Tree → List Char → Prop}
    (hparse : ∀ source tree, parse source = .ok tree ↔ DerivesAll derives source tree) :
    Unambiguous derives := by
  intro source tree other htree hother
  have hok := (hparse source tree).mpr htree
  rw [(hparse source other).mpr hother] at hok
  exact (Except.ok.inj hok).symm

/-- Every entry gives a tree exactly for the texts that have a phrase of the grammar with that
tree, and the grammar gives no text two trees. -/
theorem parse_eq_ok_iff_derivesAll :
    (∀ source tree, Program.parse source = .ok tree ↔ DerivesAll Block.Derives source tree) ∧
      (∀ source tree, Stmt.parse source = .ok tree ↔ DerivesAll Stmt.Derives source tree) ∧
      (∀ source tree, Expr.parse source = .ok tree ↔
        DerivesAll (Expr.Derives .comparison) source tree) ∧
      Unambiguous Block.Derives ∧ Unambiguous Stmt.Derives ∧
      Unambiguous (Expr.Derives .comparison) :=
  ⟨fun _ _ => Program.parse_eq_ok_iff, fun _ _ => Stmt.parse_eq_ok_iff,
    fun _ _ => Expr.parse_eq_ok_iff, unambiguous_of_parse fun _ _ => Program.parse_eq_ok_iff,
    unambiguous_of_parse fun _ _ => Stmt.parse_eq_ok_iff,
    unambiguous_of_parse fun _ _ => Expr.parse_eq_ok_iff⟩

end PlZero
