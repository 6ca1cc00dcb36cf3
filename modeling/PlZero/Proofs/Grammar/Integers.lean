import PlZero.Proofs.Grammar.Readings
import PlZero.Proofs.Text.Integers

/-! # Integers that are read

The integer nodes of a reading are the integers of the text that it covers, from left to right.
Every rule accounts for the integers up to where it stops: what it reads as something else has
none, and where it stops, no integer is cut in two.
-/

namespace PlZero

open Peg PlZero.Language
open Text (integersFrom integersFrom_digits integersFrom_of_head integersFrom_quoted
  integersFrom_signs integersFrom_word isDigit_eq_false_of_isAlphanum isNeutral
  isNeutral_of_isBlank)

/-- The rules whose nodes hold the nodes of their parts. -/
def Rule.isPhrase : Rule → Bool
  | .program | .wholeExpr | .wholeStmt | .stmt | .assign | .print | .branch | .loop | .block
  | .expr | .chain => true
  | _ => false

mutual

/-- The integers of a node, with their places. -/
def literalsOfNode : Node Rule → List (Nat × List Char)
  | ⟨rule, offset, text, children⟩ =>
      if rule = .int then [(offset, text)]
      else if rule.isPhrase then literalsOfNodes children
      else []

/-- The integers of nodes that stand one behind another. -/
def literalsOfNodes : List (Node Rule) → List (Nat × List Char)
  | [] => []
  | first :: others => literalsOfNode first ++ literalsOfNodes others

end

@[simp]
theorem literalsOfNodes_append (first next : List (Node Rule)) :
    literalsOfNodes (first ++ next) = literalsOfNodes first ++ literalsOfNodes next := by
  induction first with
  | nil => rfl
  | cons node first ih => simp [literalsOfNodes, ih]

theorem literalsOfNode_of_isPhrase {rule : Rule} (hrule : rule.isPhrase) (offset : Nat)
    (text : List Char) (children : List (Node Rule)) :
    literalsOfNode ⟨rule, offset, text, children⟩ = literalsOfNodes children := by
  have hint : rule ≠ .int := by
    intro hint
    rw [hint] at hrule
    cases hrule
  rw [literalsOfNode, if_neg hint, if_pos hrule]

/-- A token that is no integer, or a sign, has no integers. -/
theorem literalsOfNode_eq_nil (rule : Rule) (hrule : rule.isPhrase = false) (hint : rule ≠ .int)
    {offset : Nat} {text : List Char} {children : List (Node Rule)} :
    literalsOfNode ⟨rule, offset, text, children⟩ = [] := by
  rw [literalsOfNode, if_neg hint, if_neg (by simp [hrule])]

/-- The integers from a place on. -/
def integersAt (cursor : Cursor) : List (Nat × List Char) :=
  integersFrom false false cursor.offset cursor.rest

/-- What was found are the integers up to the place where it stops. -/
def Tallies (cursor : Cursor) (found : Found Rule) : Prop :=
  integersAt cursor = literalsOfNodes found.nodes ++ integersAt found.stop

/-- A node tallies wherever it is found. -/
def Accounted (node : Node Rule) : Prop :=
  ∀ cursor stop, language.find false node.rule cursor = some ⟨[node], stop⟩ →
    Tallies cursor ⟨[node], stop⟩

/-- What a parsing expression finds tallies if the nodes do that it finds. -/
def Accounts (peg : Peg Rule) : Prop :=
  ∀ cursor found, language.scan false peg cursor = some found →
    (∀ node ∈ found.nodes, Accounted node) → Tallies cursor found

/-! ## Parsing expressions -/

/-- Blanks have no integers. -/
theorem integersAt_gap (cursor : Cursor) :
    integersAt (language.gap false cursor) = integersAt cursor := by
  have hrun := wholeRun_takeWhile isBlank cursor.rest
  have hblanks : (cursor.rest.takeWhile isBlank).all isNeutral := by
    rw [List.all_eq_true]
    exact fun char hchar => isNeutral_of_isBlank (hrun.accepts_run char hchar)
  have hsigns := @integersFrom_signs cursor.offset _ (cursor.rest.drop
    (cursor.rest.takeWhile isBlank).length) hblanks
  rw [← hrun.eq_append] at hsigns
  exact hsigns.symm

theorem Tallies.append {cursor : Cursor} {first next : Found Rule} (hfirst : Tallies cursor first)
    (hnext : Tallies first.stop next) : Tallies cursor (first.append next) := by
  unfold Tallies at hfirst hnext ⊢
  rw [hfirst, hnext, Found.nodes_append, literalsOfNodes_append, List.append_assoc]
  rfl

theorem Tallies.of_gap {cursor : Cursor} {found : Found Rule}
    (htallies : Tallies (language.gap false cursor) found) : Tallies cursor found := by
  unfold Tallies at htallies ⊢
  rw [← htallies, integersAt_gap]

theorem accounts_empty : Accounts .empty := by
  intro cursor found hfound _
  cases hfound
  rfl

theorem accounts_notAhead (body : Peg Rule) : Accounts (.notAhead body) := by
  intro cursor found hfound _
  rw [Grammar.scan_notAhead] at hfound
  split at hfound
  next => cases hfound
  next =>
    cases hfound
    rfl

/-- A word of signs has no integers. -/
theorem accounts_word {text : List Char} (hsigns : text.all isNeutral) :
    Accounts (.word text) := by
  intro cursor found hfound _
  obtain ⟨rest, hrest, rfl⟩ := scan_word_eq_some_iff.mp hfound
  unfold Tallies integersAt
  rw [hrest, integersFrom_signs hsigns]
  rfl

theorem accounts_seq {first next : Peg Rule} (hfirst : Accounts first) (hnext : Accounts next) :
    Accounts (.seq first next) := by
  intro cursor found hfound hnodes
  obtain ⟨start, others, hstart, hothers, rfl⟩ := scan_seq_eq_some_iff.mp hfound
  rw [Found.nodes_append, List.forall_mem_append] at hnodes
  have hrest := hnext _ others hothers hnodes.2
  exact (hfirst cursor start hstart hnodes.1).append hrest.of_gap

theorem accounts_choice {first other : Peg Rule} (hfirst : Accounts first)
    (hother : Accounts other) : Accounts (.choice first other) := by
  intro cursor found hfound hnodes
  rw [Grammar.scan_choice, Option.or_eq_some_iff] at hfound
  rcases hfound with hfound | ⟨-, hfound⟩
  · exact hfirst cursor found hfound hnodes
  · exact hother cursor found hfound hnodes

theorem tallies_repeatScan {body : Peg Rule} (hbody : Accounts body) (bound : Nat)
    (cursor : Cursor)
    (hnodes : ∀ node ∈ (repeatScan (language.gap false) (language.scan false body) bound
      cursor).nodes, Accounted node) :
    Tallies cursor (repeatScan (language.gap false) (language.scan false body) bound cursor) := by
  induction bound generalizing cursor with
  | zero => rfl
  | succ bound ih =>
      rw [repeatScan] at hnodes ⊢
      cases hfound : language.scan false body (language.gap false cursor) with
      | none => rfl
      | some found =>
          rw [hfound] at hnodes
          simp only [Found.nodes_append, List.forall_mem_append] at hnodes
          have hfirst := hbody _ found hfound hnodes.1
          exact hfirst.of_gap.append (ih found.stop hnodes.2)

theorem accounts_star {body : Peg Rule} (hbody : Accounts body) : Accounts (.star body) := by
  intro cursor found hfound hnodes
  rw [Grammar.scan, Peg.scan] at hfound
  split at hfound
  next =>
    cases hfound
    rfl
  next first hfirst =>
    obtain rfl := Option.some_inj.mp hfound
    rw [Found.nodes_append, List.forall_mem_append] at hnodes
    exact (hbody cursor first hfirst hnodes.1).append (tallies_repeatScan hbody _ _ hnodes.2)

theorem accounts_enter (rule : Rule) : Accounts (.enter rule) := by
  intro cursor found hfound hnodes
  obtain ⟨inner, hinner, rfl⟩ := find_eq_some_iff.mp hfound
  exact hnodes _ List.mem_cons_self cursor _ hfound

/-! ## Words of letters -/

theorem head?_of_gap {cursor : Cursor}
    (hgap : ∀ char ∈ (language.gap false cursor).rest.head?, char.isDigit = false) :
    ∀ char ∈ cursor.rest.head?, char.isDigit = false := by
  intro char hchar
  obtain ⟨tail, hrest⟩ := List.head?_eq_some_iff.mp hchar
  cases hblank : isBlank char with
  | true => exact isDigit_eq_false_of_isAlphanum (isAlphanum_eq_false_of_isBlank hblank)
  | false =>
      apply hgap
      rw [rest_gap, hrest, List.dropWhile_cons_of_neg (by simp [hblank])]
      rfl

/-- Behind a word of letters no integer is cut in two if no digit follows. -/
theorem tallies_of_word {head : Char} {tail : List Char} {next : Peg Rule} {cursor : Cursor}
    {found : Found Rule} (hhead : head.isAlpha) (htail : ∀ char ∈ tail, char.isAlphanum)
    (hnext : Accounts next)
    (hfound : language.scan false (.seq (.word (head :: tail)) next) cursor = some found)
    (hnodes : ∀ node ∈ found.nodes, Accounted node)
    (hrest : ∀ rest, cursor.rest = head :: tail ++ rest →
      ∀ char ∈ rest.head?, char.isDigit = false) :
    Tallies cursor found := by
  obtain ⟨start, others, hstart, hothers, rfl⟩ := scan_seq_eq_some_iff.mp hfound
  rw [Found.nodes_append, List.forall_mem_append] at hnodes
  obtain ⟨rest, hword, rfl⟩ := scan_word_eq_some_iff.mp hstart
  refine Tallies.append ?_ (hnext _ others hothers hnodes.2).of_gap
  unfold Tallies integersAt
  rw [hword, integersFrom_word hhead htail, integersFrom_of_head (hrest rest hword)]
  rfl

/-- Whether what is found starts with a character that is no digit, as far as can be seen. -/
def opens : Peg Rule → Bool
  | .seq (.word (head :: _)) _ => !head.isDigit
  | .enter rule => rule = .block
  | _ => false

theorem head?_of_scan_seq_word {head : Char} {tail : List Char} {next : Peg Rule}
    {cursor : Cursor} {found : Found Rule} (hhead : head.isDigit = false)
    (hfound : language.scan false (.seq (.word (head :: tail)) next) cursor = some found) :
    ∀ char ∈ cursor.rest.head?, char.isDigit = false := by
  obtain ⟨start, others, hstart, -, -⟩ := scan_seq_eq_some_iff.mp hfound
  obtain ⟨rest, hrest, -⟩ := scan_word_eq_some_iff.mp hstart
  rw [hrest]
  simpa using hhead

theorem head?_of_opens {peg : Peg Rule} {cursor : Cursor} {found : Found Rule}
    (hopens : opens peg) (hfound : language.scan false peg cursor = some found) :
    ∀ char ∈ cursor.rest.head?, char.isDigit = false := by
  unfold opens at hopens
  split at hopens
  next head tail next =>
    rw [Bool.not_eq_true'] at hopens
    exact head?_of_scan_seq_word hopens hfound
  next rule =>
    obtain rfl := of_decide_eq_true hopens
    obtain ⟨inner, hinner, -⟩ := find_eq_some_iff.mp hfound
    exact head?_of_scan_seq_word (by decide) hinner
  next => cases hopens

/-- Whether a parsing expression is a word of letters. -/
def isKeyword : Peg Rule → Bool
  | .word (head :: tail) => head.isAlpha && tail.all Char.isAlphanum
  | _ => false

/-- A keyword has something behind it that is no digit. -/
theorem accounts_keyword {first next : Peg Rule} (hfirst : isKeyword first) (hnext : Accounts next)
    (hopens : opens next) : Accounts (.seq first next) := by
  intro cursor found hfound hnodes
  unfold isKeyword at hfirst
  split at hfirst
  next head tail =>
    rw [Bool.and_eq_true, List.all_eq_true] at hfirst
    refine tallies_of_word hfirst.1 hfirst.2 hnext hfound hnodes ?_
    intro rest hrest
    obtain ⟨start, others, hstart, hothers, -⟩ := scan_seq_eq_some_iff.mp hfound
    obtain ⟨rest', hrest', rfl⟩ := scan_word_eq_some_iff.mp hstart
    obtain rfl := List.append_cancel_left (hrest.symm.trans hrest')
    exact head?_of_gap (head?_of_opens hopens hothers)
  next => cases hfirst

/-- Whether a parsing expression has no words but those of signs, and keywords in front of
something that is no digit. -/
def isSpaced : Peg Rule → Bool
  | .word text => text.all isNeutral
  | .seq first next => (isSpaced first || isKeyword first && opens next) && isSpaced next
  | .choice first other => isSpaced first && isSpaced other
  | .star body => isSpaced body
  | .empty | .notAhead _ | .enter _ => true
  | .char _ | .ahead _ => false

theorem accounts_of_isSpaced {peg : Peg Rule} (hspaced : isSpaced peg) : Accounts peg := by
  induction peg with
  | empty => exact accounts_empty
  | word text => exact accounts_word hspaced
  | seq first next ihfirst ihnext =>
      unfold isSpaced at hspaced
      rw [Bool.and_eq_true, Bool.or_eq_true, Bool.and_eq_true] at hspaced
      rcases hspaced.1 with hfirst | ⟨hkeyword, hopens⟩
      · exact accounts_seq (ihfirst hfirst) (ihnext hspaced.2)
      · exact accounts_keyword hkeyword (ihnext hspaced.2) hopens
  | choice first other ihfirst ihother =>
      unfold isSpaced at hspaced
      rw [Bool.and_eq_true] at hspaced
      exact accounts_choice (ihfirst hspaced.1) (ihother hspaced.2)
  | star body ih => exact accounts_star (ih hspaced)
  | notAhead body => exact accounts_notAhead body
  | enter rule => exact accounts_enter rule
  | char accepts => cases hspaced
  | ahead body => cases hspaced

/-- The word of a print has no letter or digit behind it. -/
theorem accounts_print : Accounts (body .print) := by
  intro cursor found hfound hnodes
  obtain ⟨start, others, hstart, hothers, rfl⟩ := scan_seq_eq_some_iff.mp hfound
  rw [Grammar.scan_ahead] at hstart
  obtain ⟨inner, hinner, rfl⟩ := Option.map_eq_some_iff.mp hstart
  obtain ⟨rest, hrun, -⟩ := find_printWord_eq_some_iff.mp hinner
  rw [Found.nodes_append, List.forall_mem_append] at hnodes
  have htallies : Tallies (language.gap false cursor) others := by
    refine tallies_of_word (by decide) (by simp) (accounts_enter .expr) hothers hnodes.2 ?_
    intro rest' hrest'
    have hgap : (language.gap false cursor).rest = 'p' :: rest := by
      rw [rest_gap, hrun.eq_append]
      rfl
    obtain rfl := List.append_cancel_left (hrest'.symm.trans hgap)
    exact fun char hchar => isDigit_eq_false_of_isAlphanum (hrun.stops char hchar)
  exact htallies.of_gap

theorem accounts_body {rule : Rule} (hrule : rule.isPhrase) : Accounts (body rule) := by
  by_cases hprint : rule = .print
  · subst hprint
    exact accounts_print
  · apply accounts_of_isSpaced
    cases rule with
    | print => exact absurd rfl hprint
    | program | wholeExpr | wholeStmt | stmt | assign | branch | loop | block | expr | chain => rfl
    | _ => cases hrule

/-! ## Nodes -/

theorem literalsOfNodes_matched {rule : Rule} (hrule : rule ≠ .int) (offset : Nat)
    (run rest : List Char) : literalsOfNodes (matched rule offset run rest).nodes = [] := by
  simp [matched, literalsOfNodes, literalsOfNode, hrule]

theorem tallies_of_signs {rule : Rule} {cursor : Cursor} {signs rest : List Char}
    (hrule : rule ≠ .int) (hrest : cursor.rest = signs ++ rest)
    (hsigns : signs.all isNeutral) :
    Tallies cursor (matched rule cursor.offset signs rest) := by
  unfold Tallies
  rw [literalsOfNodes_matched hrule, integersAt, hrest, integersFrom_signs hsigns]
  rfl

/-- A whole run of letters and digits has no integers if it starts with a letter. -/
theorem tallies_of_wholeRun {rule : Rule} {cursor : Cursor} {word rest : List Char}
    (hrule : rule ≠ .int) (hrun : WholeRun Char.isAlphanum cursor.rest word rest)
    (hhead : word.head?.any Char.isAlpha) :
    Tallies cursor (matched rule cursor.offset word rest) := by
  cases word with
  | nil => cases hhead
  | cons head tail =>
      have htail := (List.forall_mem_cons.mp hrun.accepts_run).2
      have hdigit : ∀ char ∈ rest.head?, char.isDigit = false :=
        fun char hchar => isDigit_eq_false_of_isAlphanum (hrun.stops char hchar)
      unfold Tallies
      rw [literalsOfNodes_matched hrule, integersAt, hrun.eq_append, integersFrom_word hhead htail,
        integersFrom_of_head hdigit]
      rfl

/-- A token or a sign tallies. -/
theorem tallies_of_find {rule : Rule} {cursor : Cursor} {found : Found Rule}
    (hrule : rule.isPhrase = false) (hfound : language.find false rule cursor = some found) :
    Tallies cursor found := by
  cases rule with
  | int =>
      obtain ⟨digits, rest, hrun, hnil, rfl⟩ := find_int_eq_some_iff.mp hfound
      exact integersFrom_digits hrun hnil
  | str =>
      obtain ⟨text, rest, hquote, hrest, rfl⟩ := find_str_eq_some_iff.mp hfound
      unfold Tallies
      rw [literalsOfNodes_matched (by decide), integersAt, hrest, integersFrom_quoted hquote]
      rfl
  | bool value =>
      obtain ⟨rest, hrun, rfl⟩ := find_bool_eq_some_iff.mp hfound
      exact tallies_of_wholeRun nofun hrun (by cases value <;> decide)
  | ident =>
      obtain ⟨name, rest, hname, hrun, rfl⟩ := find_ident_eq_some_iff.mp hfound
      obtain ⟨head, tail, heq, halpha⟩ := hname.exists_eq_cons
      exact tallies_of_wholeRun nofun hrun (by simpa [heq] using halpha)
  | printWord =>
      obtain ⟨rest, hrun, rfl⟩ := find_printWord_eq_some_iff.mp hfound
      exact tallies_of_wholeRun nofun hrun (by decide)
  | reserved =>
      have hscan := @scan_lone_words reservedWords (by decide) (by decide) cursor
      obtain ⟨run, rest, hrun, hreserved, rfl⟩ :=
        (find_eq_some_iff_of_run (@find_eq_leaf .reserved _ _ _ _ hscan)).mp hfound
      have hheads : ∀ word ∈ reservedWords, word.head?.any Char.isAlpha := by decide
      exact tallies_of_wholeRun nofun hrun (hheads run hreserved)
  | compare op =>
      obtain ⟨rest, hrest, rfl⟩ := find_compare_eq_some_iff.mp hfound
      exact tallies_of_signs nofun hrest (by cases op <;> decide)
  | arith op =>
      obtain ⟨rest, hrest, rfl⟩ := find_arith_eq_some_iff.mp hfound
      exact tallies_of_signs nofun hrest (by cases op <;> decide)
  | negation =>
      obtain ⟨rest, hrest, rfl⟩ := find_negation_eq_some_iff.mp hfound
      exact tallies_of_signs nofun hrest (by decide)
  | finish =>
      obtain ⟨inner, hinner, rfl⟩ := find_eq_some_iff.mp hfound
      change language.scan false (.notAhead (.char fun _ => true)) cursor = some inner at hinner
      rw [Grammar.scan_notAhead] at hinner
      split at hinner
      next => cases hinner
      next =>
        cases hinner
        rfl
  | _ => cases hrule

/-- Every node tallies: the induction is on the tree of nodes. -/
theorem accounted : (node : Node Rule) → Accounted node
  | ⟨rule, offset, text, children⟩ => by
      have hchildren : ∀ child ∈ children, Accounted child := fun child _ => accounted child
      intro cursor stop hfound
      rw [Node.rule] at hfound
      cases hrule : rule.isPhrase with
      | false => exact tallies_of_find hrule hfound
      | true =>
          obtain ⟨inner, hinner, heq⟩ := find_eq_some_iff.mp hfound
          have htoken : isToken rule = false := by
            cases rule with
            | int | str | bool | reserved | printWord | ident => cases hrule
            | _ => rfl
          rw [htoken] at hinner
          cases heq
          have htallies := accounts_body hrule cursor inner hinner hchildren
          unfold Tallies at htallies ⊢
          rw [htallies, literalsOfNodes, literalsOfNode_of_isPhrase hrule]
          simp [literalsOfNodes]

end PlZero
