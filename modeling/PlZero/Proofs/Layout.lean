import Mathlib.Logic.Relation
import PlZero.Proofs.Parse
import PlZero.Proofs.Stmt.Contents
import PlZero.Proofs.Stmt.Tokenwise
import PlZero.Proofs.Text.Layout

/-! # Layout never changes what a text is read as

A text whose layout is edited is read token by token as before. Literals are told apart by their
characters, blanks included.
-/

namespace PlZero

open Text

/-- Two texts behind places outside of literals that are the same but for the blanks in one
place. -/
def Outside (input other : List Char) : Prop :=
  ∃ place, place ≠ Place.quoted ∧ Relaid place input other

/-- A relation between a text and what follows its start is found again where the layout of the
text is edited. -/
def Relayable (relates : List Char → List Char → Prop) (input rest : List Char) : Prop :=
  ∀ other, Outside input other → ∃ stop, relates other stop ∧ Outside rest stop

/-- A symbol is a sign, or it is a run of plain characters. -/
theorem sign_or_isPlain_of_mem_symbols {text : String} (hmem : text ∈ symbols) :
    (∃ sign ∈ signs, text.toList = [sign]) ∨
      text.toList ≠ [] ∧ ∀ char ∈ text.toList, isPlain char := by
  have hsymbols : symbols.all fun text => signs.any (text.toList = [·]) ||
      !text.toList.isEmpty && text.toList.all isPlain := by decide
  simpa using List.all_eq_true.mp hsymbols text hmem

theorem Symbol.relayable {text : String} {input rest : List Char} (hmem : text ∈ symbols)
    (hsymbol : Symbol text input rest) : Relayable (Symbol text) input rest := by
  rintro other ⟨place, hplace, hrelaid⟩
  rcases sign_or_isPlain_of_mem_symbols hmem with ⟨sign, hsign, htext⟩ | ⟨hnil, hplain⟩
  · have hsigns : signs.all fun sign => !isBlank sign && Place.loose.behind sign = .loose := by
      decide
    obtain ⟨hblank, hbehind⟩ : isBlank sign = false ∧ Place.loose.behind sign = .loose := by
      simpa using List.all_eq_true.mp hsigns sign hsign
    simp only [Symbol, htext, List.singleton_append] at hsymbol ⊢
    obtain ⟨stop, hstop, hrest⟩ := hrelaid.exists_of_skips hplace hsymbol hblank
    rw [hbehind] at hrest
    exact ⟨stop, hstop, .loose, by decide, hrest⟩
  · obtain ⟨stop, hstop, hrest⟩ := hrelaid.exists_of_skips_run hplace hsymbol hnil hplain
    exact ⟨stop, hstop, .tight, by decide, hrest⟩

/-- A whole run behind blanks stays what it is. -/
theorem WholeRun.relayable {accepts : Char → Bool} {input start run rest other : List Char}
    (hrun : WholeRun accepts start run rest) (hskips : Skips input start) (hnil : run ≠ [])
    (haccepts : ∀ char, accepts char → char.isAlphanum) (houtside : Outside input other) :
    ∃ next stop, Skips other next ∧ WholeRun accepts next run stop ∧ Outside rest stop := by
  obtain ⟨place, hplace, hrelaid⟩ := houtside
  have hplain : ∀ char, accepts char → isPlain char := fun char haccept =>
    isPlain_of_isAlphanum (haccepts char haccept)
  obtain ⟨stop, hstop, hrest⟩ := hrelaid.exists_of_skips_run hplace (hrun.eq_append ▸ hskips) hnil
    fun char hchar => hplain char (hrun.accepts_run char hchar)
  exact ⟨_, stop, hstop, ⟨rfl, hrun.accepts_run, hrest.stops hplain hrun.stops⟩, .tight,
    by decide, hrest⟩

theorem Relayable.tokenwise : Tokenwise Relayable where
  symbol := Symbol.relayable
  loneWord hne hword := by
    obtain ⟨start, hskips, hrun⟩ := hword
    intro other houtside
    obtain ⟨next, stop, hnext, hrun, hrest⟩ := hrun.relayable hskips
      (fun hnil => hne (String.toList_eq_nil_iff.mp hnil)) (fun _ => id) houtside
    exact ⟨stop, ⟨next, hnext, hrun⟩, hrest⟩
  integer hint := by
    obtain ⟨start, digits, hskips, hrun, hnil, hvalue⟩ := hint
    intro other houtside
    obtain ⟨next, stop, hnext, hrun, hrest⟩ := hrun.relayable hskips hnil
      (fun _ => isAlphanum_of_isDigit) houtside
    exact ⟨stop, ⟨next, digits, hnext, hrun, hnil, hvalue⟩, hrest⟩
  quoted hquoted := by
    rintro other ⟨place, hplace, hrelaid⟩
    obtain ⟨hquote, hskips⟩ := hquoted
    obtain ⟨middle, hmiddle, hrelaid⟩ := hrelaid.exists_of_skips hplace hskips (by decide)
    obtain ⟨stop, rfl, hrest⟩ := hrelaid.exists_of_quoted hquote
    exact ⟨stop, ⟨hquote, hmiddle⟩, .tight, by decide, hrest⟩
  nil hrelates := fun other houtside => ⟨other, hrelates other, houtside⟩
  comp hfirst hnext := by
    intro other houtside
    obtain ⟨middle, hfirst, houtside⟩ := hfirst other houtside
    obtain ⟨stop, hnext, hrest⟩ := hnext middle houtside
    exact ⟨stop, ⟨middle, hfirst, hnext⟩, hrest⟩
  mono hfirst himp := by
    intro other houtside
    obtain ⟨stop, hfirst, hrest⟩ := hfirst other houtside
    exact ⟨stop, himp _ _ hfirst, hrest⟩

/-- An entry reads both of two texts as a tree or neither of them, and it reads no text with other
literals as that tree. -/
def ReadsAlike {Tree : Type} (parse : String → Except SyntaxError Tree) (source other : String) :
    Prop :=
  ∀ tree, (parse other = .ok tree ↔ parse source = .ok tree) ∧
    (parse source = .ok tree → ∀ text, parse text = .ok tree →
      literals text.toList = literals source.toList)

section Entries

variable {Tree : Type} {parse : String → Except SyntaxError Tree}
  {derives : List Char → Tree → List Char → Prop} {exprs : Tree → List Expr}
  {source other : String} {tree : Tree}

theorem Spans.of_edit
    (hrelayable : ∀ {input rest}, derives input tree rest → Relayable (derives · tree ·) input rest)
    {input other : List Char} (hedit : Edit input other) (hspans : Spans derives input tree []) :
    Spans derives other tree [] := by
  obtain ⟨rest, htree, hrest⟩ := hspans
  obtain ⟨stop, htree, place, -, hrelaid⟩ :=
    hrelayable htree other ⟨.loose, by decide, hedit.relaid⟩
  exact ⟨stop, htree, hrelaid.skips_nil hrest⟩

theorem Spans.iff_of_edits
    (hrelayable : ∀ {input rest}, derives input tree rest →
      Relayable (derives · tree ·) input rest)
    {input other : List Char} (hedits : Relation.ReflTransGen Edit input other) :
    Spans derives other tree [] ↔ Spans derives input tree [] := by
  induction hedits with
  | refl => rfl
  | tail _ hedit ih =>
      exact Iff.trans ⟨Spans.of_edit hrelayable hedit.symm, Spans.of_edit hrelayable hedit⟩ ih

theorem readsAlike_of_derives
    (hparse : ∀ {source tree}, parse source = .ok tree ↔ DerivesAll derives source tree)
    (hrelayable : ∀ {tree input rest}, derives input tree rest →
      Relayable (derives · tree ·) input rest)
    (hliterals : ∀ {tree input rest}, derives input tree rest →
      literals input = stringsOf (exprs tree) ++ literals rest)
    (hedits : Relation.ReflTransGen Edit source.toList other.toList) :
    ReadsAlike parse source other := by
  refine fun tree => ⟨?_, fun hsource text htext => ?_⟩
  · rw [hparse, hparse]
    exact Spans.iff_of_edits hrelayable hedits
  · rw [DerivesAll.literals_eq (hparse.mp htext) hliterals,
      DerivesAll.literals_eq (hparse.mp hsource) hliterals]

end Entries

theorem literals_eq_of_edits {input other : List Char}
    (hedits : Relation.ReflTransGen Edit input other) : literals other = literals input := by
  induction hedits with
  | refl => rfl
  | tail _ hedit ih => exact hedit.literals_eq.symm.trans ih

/-- Edits of the layout change nothing for any entry, neither what is read nor what is rejected,
and no literal. Literals count with all their characters: a text that has others is read as
something else. -/
theorem readsAlike_of_edits {source other : String}
    (hedits : Relation.ReflTransGen Edit source.toList other.toList) :
    ReadsAlike Program.parse source other ∧ ReadsAlike Stmt.parse source other ∧
      ReadsAlike Expr.parse source other ∧
      literals other.toList = literals source.toList :=
  ⟨readsAlike_of_derives Program.parse_eq_ok_iff Relayable.tokenwise.block
      Block.Derives.literals_eq hedits,
    readsAlike_of_derives Stmt.parse_eq_ok_iff Relayable.tokenwise.stmt
      Stmt.Derives.literals_eq hedits,
    readsAlike_of_derives Expr.parse_eq_ok_iff Relayable.tokenwise.expr
      Expr.Derives.literals_eq hedits,
    literals_eq_of_edits hedits⟩

/-- Blanks are put in at the start and beside a sign, exchanged behind a word, and left out beside
a sign; those of the literal are kept. -/
theorem readsAlike_of_edits_around :
    Relation.ReflTransGen Edit "p \"a  b\" +1".toList " p\n\"a  b\"+ 1".toList ∧
      ReadsAlike Program.parse "p \"a  b\" +1" " p\n\"a  b\"+ 1" ∧
      ReadsAlike Stmt.parse "p \"a  b\" +1" " p\n\"a  b\"+ 1" ∧
      ReadsAlike Expr.parse "p \"a  b\" +1" " p\n\"a  b\"+ 1" ∧
      literals " p\n\"a  b\"+ 1".toList = literals "p \"a  b\" +1".toList := by
  have hblank : ∀ char ∈ [' '], isBlank char := List.forall_mem_singleton.mpr rfl
  have hline : ∀ char ∈ ['\n'], isBlank char := List.forall_mem_singleton.mpr rfl
  have hstart : Edit "p \"a  b\" +1".toList " p \"a  b\" +1".toList :=
    @Edit.blanks [] [] [' '] "p \"a  b\" +1".toList (by decide) (by simp) hblank (.inr (.inl rfl))
  have hword : Edit " p \"a  b\" +1".toList " p\n\"a  b\" +1".toList :=
    @Edit.blanks " p".toList [' '] ['\n'] "\"a  b\" +1".toList (by decide) hblank hline
      (.inl (by decide))
  have hbefore : Edit " p\n\"a  b\" +1".toList " p\n\"a  b\"+1".toList :=
    @Edit.blanks " p\n\"a  b\"".toList [' '] [] "+1".toList (by decide) hblank (by simp)
      (.inr (.inr (.inr (.inr ⟨'+', rfl, by decide⟩))))
  have hbehind : Edit " p\n\"a  b\"+1".toList " p\n\"a  b\"+ 1".toList :=
    @Edit.blanks " p\n\"a  b\"+".toList [] [' '] "1".toList (by decide) (by simp) hblank
      (.inr (.inr (.inr (.inl ⟨'+', rfl, by decide⟩))))
  have hedits := (((Relation.ReflTransGen.single hstart).tail hword).tail hbefore).tail hbehind
  exact ⟨hedits, readsAlike_of_edits hedits⟩

end PlZero
