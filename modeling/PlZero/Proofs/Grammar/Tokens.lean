import PlZero.Proofs.Grammar.Runs
import PlZero.Proofs.Peg.Scan

/-! # Tokens and signs

What the rules of tokens and signs find, in closed form: each of them finds a run of characters
that the text alone determines, or nothing. The keyword boundaries come down to one fact: no
keyword is the start of another one, so an ordered choice of them finds the whole word.
-/

namespace PlZero.Language

open Peg

/-- The rules that take a character whenever they match. -/
def eats : Rule → Bool
  | .finish | .program => false
  | _ => true

/-- A rule ranks above the rules it calls at its own start. -/
def rank : Rule → Nat
  | .program | .wholeExpr | .wholeStmt => 5
  | .stmt => 4
  | .expr => 3
  | .chain | .assign => 2
  | .print | .ident => 1
  | _ => 0

/-- No rule of the language calls itself at its own start. -/
def ranked : language.Ranked where
  eats := eats
  rank := rank
  eats_body rule := by
    cases rule with
    | compare op => cases op <;> decide
    | arith op => cases op <;> decide
    | bool value => cases value <;> decide
    | _ => decide
  rank_lt rule := by cases rule <;> simp only [rank] <;> decide
  guarded_body rule := by
    cases rule with
    | compare op => cases op <;> decide
    | arith op => cases op <;> decide
    | bool value => cases value <;> decide
    | _ => decide

/-- What a rule finds that covers `count` characters and leaves no nodes inside. -/
def leaf (rule : Rule) (cursor : Cursor) (count : Nat) : Found Rule :=
  ⟨[⟨rule, cursor.offset, cursor.rest.take count, []⟩], cursor.advance count⟩

theorem enclose_advance (rule : Rule) (cursor : Cursor) (count : Nat) :
    Grammar.enclose rule cursor ⟨[], cursor.advance count⟩ = leaf rule cursor count := by
  simp only [Grammar.enclose, leaf, Cursor.advance, Nat.add_sub_cancel_left]

@[simp]
theorem gap_true (cursor : Cursor) : language.gap true cursor = cursor := rfl

theorem rest_gap (cursor : Cursor) :
    (language.gap false cursor).rest = cursor.rest.dropWhile isBlank :=
  drop_length_takeWhile isBlank cursor.rest

theorem find_eq_map (rule : Rule) (cursor : Cursor) :
    language.find false rule cursor =
      (language.scan (isToken rule) (body rule) cursor).map (Grammar.enclose rule cursor) :=
  ranked.find_false rule cursor

/-- A rule whose body covers some characters on a condition is a leaf on this condition. -/
theorem find_eq_leaf {rule : Rule} {cursor : Cursor} {condition : Prop} [Decidable condition]
    {count : Nat} (hscan : language.scan (isToken rule) (body rule) cursor =
      if condition then some ⟨[], cursor.advance count⟩ else none) :
    language.find false rule cursor =
      if condition then some (leaf rule cursor count) else none := by
  rw [find_eq_map, hscan]
  split
  next => rw [Option.map_some, enclose_advance]
  next => rfl

theorem find_of_body_eq_word {rule : Rule} {text : List Char} (hbody : body rule = .word text)
    (cursor : Cursor) :
    language.find false rule cursor =
      if text.isPrefixOf cursor.rest then some (leaf rule cursor text.length) else none := by
  refine find_eq_leaf ?_
  rw [hbody]
  rfl

/-! ## Runs of characters -/

theorem scan_char_star (accepts : Char → Bool) (cursor : Cursor) :
    language.scan true (.star (.char accepts)) cursor =
      some ⟨[], cursor.advance (cursor.rest.takeWhile accepts).length⟩ := by
  refine (ranked.scan_star_iff rfl rfl).mpr ?_
  rcases cursor with ⟨offset, rest⟩
  induction rest generalizing offset with
  | nil => exact .stop rfl
  | cons head rest ih =>
      by_cases haccepts : accepts head
      · have hfound : language.scan true (.char accepts) ⟨offset, head :: rest⟩ =
            some ⟨[], ⟨offset + 1, rest⟩⟩ := by
          simp [Grammar.scan_char, haccepts, Cursor.advance]
        have hmore := @Repeats.more _ (language.gap true) _ _ _ _ hfound (ih (offset + 1))
        simpa [Found.append, Cursor.advance, haccepts, Nat.add_assoc, Nat.add_comm 1] using hmore
      · have hnone : language.scan true (.char accepts) ⟨offset, head :: rest⟩ = none := by
          simp [Grammar.scan_char, haccepts]
        simpa [haccepts] using @Repeats.stop _ (language.gap true) _ _ hnone

theorem scan_notAhead_char (inToken : Bool) (accepts : Char → Bool) (cursor : Cursor) :
    language.scan inToken (.notAhead (.char accepts)) cursor =
      if cursor.rest.head?.any accepts then none else some ⟨[], cursor⟩ := by
  rw [Grammar.scan_notAhead, Grammar.scan_char]
  cases cursor.rest.head?.any accepts <;> rfl

/-! ## Words -/

theorem scan_oneOf_words (words : List (List Char)) (cursor : Cursor) :
    language.scan true (oneOf (words.map .word)) cursor =
      (words.find? (·.isPrefixOf cursor.rest)).map fun word =>
        ⟨[], cursor.advance word.length⟩ := by
  induction words with
  | nil => rfl
  | cons word others ih =>
      have hchoice : language.scan true (oneOf ((word :: others).map .word)) cursor =
          (language.scan true (.word word) cursor).or
            (language.scan true (oneOf (others.map .word)) cursor) := by
        cases others with
        | nil => simp [oneOf, Grammar.scan_notAhead, Grammar.scan_empty]
        | cons => rfl
      rw [hchoice, ih, Grammar.scan_word, List.find?_cons]
      cases word.isPrefixOf cursor.rest <;> rfl

/-- If no word is the start of another one, a lone word among them is the whole run of letters and
digits. -/
theorem scan_lone_words {words : List (List Char)}
    (hchars : ∀ word ∈ words, word.all isWordChar)
    (hstart : ∀ word ∈ words, ∀ other ∈ words, word.isPrefixOf other → word = other)
    (cursor : Cursor) :
    language.scan true (lone (oneOf (words.map .word))) cursor =
      if cursor.rest.takeWhile isWordChar ∈ words then
        some ⟨[], cursor.advance (cursor.rest.takeWhile isWordChar).length⟩
      else none := by
  simp only [lone, all, Grammar.scan_seq, scan_oneOf_words, gap_true]
  cases hfind : words.find? (·.isPrefixOf cursor.rest) with
  | none =>
      have hnone := List.find?_eq_none.mp hfind
      rw [if_neg]
      · rfl
      · intro hmem
        exact hnone _ hmem (List.isPrefixOf_iff_prefix.mpr (List.takeWhile_prefix _))
  | some word =>
      have hmem := List.mem_of_find?_eq_some hfind
      obtain ⟨rest, hrest⟩ := List.isPrefixOf_iff_prefix.mp
        (@List.find?_some _ (List.isPrefixOf · cursor.rest) _ _ hfind)
      have hrun : cursor.rest.takeWhile isWordChar = word ++ rest.takeWhile isWordChar := by
        rw [← hrest, List.takeWhile_append_of_pos (List.all_eq_true.mp (hchars word hmem))]
      have hdrop : (cursor.advance word.length).rest = rest := by
        simp [Cursor.advance, ← hrest]
      simp only [Option.map_some, Option.bind_some, scan_notAhead_char, hdrop, hrun]
      cases rest with
      | nil => simp [hmem, Found.append]
      | cons head rest =>
          by_cases hhead : isWordChar head
          · -- The run goes on behind the word, and no other word starts with this one.
            have hnot : word ++ head :: rest.takeWhile isWordChar ∉ words := by
              intro hlonger
              have heq := hstart word hmem _ hlonger
                (List.isPrefixOf_iff_prefix.mpr (List.prefix_append _ _))
              simp at heq
            simp [hhead, hnot]
          · simp [hhead, hmem, Found.append]

theorem find_reserved (cursor : Cursor) :
    language.find true .reserved cursor =
      if cursor.rest.takeWhile isWordChar ∈ reservedWords then
        some ⟨[], cursor.advance (cursor.rest.takeWhile isWordChar).length⟩
      else none := by
  rw [ranked.find_true]
  exact scan_lone_words (by decide) (by decide) cursor

/-- A token that is one word is the whole run of letters and digits. -/
theorem find_of_body_eq_lone {rule : Rule} {word : List Char} (htoken : isToken rule = true)
    (hbody : body rule = lone (.word word)) (hchars : word.all isWordChar)
    (cursor : Cursor) :
    language.find false rule cursor =
      if cursor.rest.takeWhile isWordChar = word then some (leaf rule cursor word.length)
      else none := by
  refine find_eq_leaf ?_
  have hlone := @scan_lone_words [word] (by simpa using hchars) (by simp) cursor
  rw [htoken, hbody]
  refine hlone.trans ?_
  by_cases heq : cursor.rest.takeWhile isWordChar = word <;> simp [heq]

theorem find_bool (value : Bool) (cursor : Cursor) :
    language.find false (.bool value) cursor =
      if cursor.rest.takeWhile isWordChar = (boolText value).toList then
        some (leaf (.bool value) cursor (boolText value).toList.length)
      else none := by
  cases value with
  | true => exact find_of_body_eq_lone rfl rfl (by decide) cursor
  | false => exact find_of_body_eq_lone rfl rfl (by decide) cursor

theorem find_printWord (cursor : Cursor) :
    language.find false .printWord cursor =
      if cursor.rest.takeWhile isWordChar = ['p'] then some (leaf .printWord cursor 1) else none :=
  find_of_body_eq_lone rfl rfl (by decide) cursor

theorem isWordChar_of_isAlpha {char : Char} (halpha : char.isAlpha) : isWordChar char :=
  isAlphanum_of_isAlpha halpha

theorem find_ident (cursor : Cursor) :
    language.find false .ident cursor =
      if cursor.rest.head?.any Char.isAlpha ∧
          cursor.rest.takeWhile isWordChar ∉ reservedWords then
        some (leaf .ident cursor (cursor.rest.takeWhile isWordChar).length)
      else none := by
  refine find_eq_leaf ?_
  simp only [isToken, body, all, Grammar.scan_seq, Grammar.scan_notAhead, Grammar.scan_enter,
    Grammar.scan_char, find_reserved, scan_char_star, gap_true]
  -- The lookahead for reserved words sees the same run that the token would take.
  by_cases hreserved : cursor.rest.takeWhile isWordChar ∈ reservedWords
  · simp [hreserved]
  · simp only [hreserved, if_false, Option.isSome_none, Bool.false_eq_true, Option.bind_some,
      not_false_eq_true, and_true]
    rcases cursor with ⟨offset, _ | ⟨head, rest⟩⟩
    · rfl
    · by_cases halpha : head.isAlpha
      · simp [halpha, isWordChar_of_isAlpha halpha, Found.append, Cursor.advance, Nat.add_assoc,
          Nat.add_comm 1]
      · simp [halpha]

/-! ## Literals -/

theorem find_int (cursor : Cursor) :
    language.find false .int cursor =
      if cursor.rest.takeWhile Char.isDigit ≠ [] then
        some (leaf .int cursor (cursor.rest.takeWhile Char.isDigit).length)
      else none := by
  refine find_eq_leaf ?_
  simp only [isToken, body, plus, Grammar.scan_seq, Grammar.scan_char, scan_char_star, gap_true]
  rcases cursor with ⟨offset, _ | ⟨head, rest⟩⟩
  · simp
  · by_cases hdigit : head.isDigit
    · simp [hdigit, Found.append, Cursor.advance, Nat.add_assoc, Nat.add_comm 1]
    · simp [hdigit]

theorem isPrefixOf_singleton (char : Char) (text : List Char) :
    [char].isPrefixOf text = true ↔ text.head? = some char := by
  cases text with
  | nil => simp
  | cons head rest => simpa using eq_comm

theorem head?_dropWhile_ne (char : Char) (text : List Char) :
    (text.dropWhile (· ≠ char)).head? = if char ∈ text then some char else none := by
  induction text with
  | nil => rfl
  | cons head rest ih =>
      by_cases hhead : head = char
      · simp [hhead]
      · simpa [hhead, Ne.symm hhead] using ih

/-- A string ends at the next quote. -/
theorem find_str (cursor : Cursor) :
    language.find false .str cursor =
      if cursor.rest.head? = some '"' ∧ '"' ∈ cursor.rest.tail then
        some (leaf .str cursor ((cursor.rest.tail.takeWhile (· ≠ '"')).length + 2))
      else none := by
  refine find_eq_leaf ?_
  simp only [isToken, body, all, sign, Grammar.scan_seq, Grammar.scan_word, scan_char_star,
    gap_true, isPrefixOf_singleton]
  rcases cursor with ⟨offset, _ | ⟨head, rest⟩⟩
  · simp
  · by_cases hhead : head = '"'
    · have hquote := head?_dropWhile_ne '"' rest
      rw [← drop_length_takeWhile, List.head?_drop] at hquote
      simp only [ne_eq, decide_not] at hquote
      by_cases hmem : '"' ∈ rest
      · rw [if_pos hmem] at hquote
        simp [hhead, hmem, Cursor.advance, hquote, Found.append, Nat.add_assoc, Nat.add_comm 1]
      · rw [if_neg hmem] at hquote
        simp [hhead, hmem, Cursor.advance, hquote]
    · simp [hhead]

end PlZero.Language
