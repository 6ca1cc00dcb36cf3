import PlZero.Proofs.Grammar.Readings

/-! # Two texts with a common start

A text is cut between two of its tokens, and what stands before the cut goes on in a second way,
with a blank or not at all. Up to the cut the tokens of both texts are the same: a word or a string
that starts before the cut also ends there. Only a number or a sign may go on over it.
-/

namespace PlZero

open Peg PlZero.Language

/-- A place between `before` and `after` where no string and no word is open. -/
structure CutsAt (before after : List Char) : Prop where
  quotes : before.count '"' % 2 = 0
  words : ∀ start word, before = start ++ word → word.all Char.isAlphanum → word.any Char.isAlpha →
    ∀ char ∈ after.head?, char.isAlphanum = false

/-- What stands before the cut goes on with `more` instead of `after`, but neither with a `=` nor
with a parenthesis that opens. -/
structure Seam (before after more : List Char) : Prop extends CutsAt before after where
  blank : ∀ char ∈ more.head?, isBlank char
  avoids : Avoids ['=', '('] more

/-- Two places, one in each text, with the characters of `left` up to the cut. -/
structure Twins (before after more left : List Char) (cursor other : Cursor) : Prop where
  suffix : left <:+ before
  offset : cursor.offset + left.length = before.length
  rest : cursor.rest = left ++ after
  other_rest : other.rest = left ++ more
  quotes : left.count '"' % 2 = 0

/-- Two places before the cut at which the same character stands, and no blank. -/
def Level (before after more : List Char) (cursor other : Cursor) : Prop :=
  ∃ head tail, isBlank head = false ∧ Twins before after more (head :: tail) cursor other

/-- Nothing but blanks stands between a place and another one, or it stands behind that. -/
def Passed (place : Nat) (cursor : Cursor) : Prop := place ≤ (language.gap false cursor).offset

/-- The gap at a place is exactly the blanks there. -/
theorem gap_eq_advance {cursor : Cursor} {blanks rest : List Char}
    (hrest : cursor.rest = blanks ++ rest) (hblanks : ∀ char ∈ blanks, isBlank char)
    (hhead : ∀ char ∈ rest.head?, isBlank char = false) :
    language.gap false cursor = cursor.advance blanks.length := by
  have hrun : WholeRun isBlank cursor.rest blanks rest := ⟨hrest, hblanks, hhead⟩
  change cursor.advance (cursor.rest.takeWhile isBlank).length = _
  rw [hrun.takeWhile_eq]

section Passed

variable {place : Nat} {cursor : Cursor}

theorem Passed.of_le (hle : place ≤ cursor.offset) : Passed place cursor :=
  Nat.le_trans hle (language.gap_moves false cursor).offset_le

theorem Passed.le_of_settled (hpassed : Passed place cursor) (hsettled : Settled cursor) :
    place ≤ cursor.offset := by
  rwa [Passed, hsettled] at hpassed

theorem length_takeWhile_le_add_drop (accepts : Char → Bool) (count : Nat) (text : List Char) :
    (text.takeWhile accepts).length ≤ count + ((text.drop count).takeWhile accepts).length := by
  induction count generalizing text with
  | zero => simp
  | succ count ih =>
      cases text with
      | nil => exact Nat.zero_le _
      | cons head tail =>
          have htail := ih tail
          rw [List.takeWhile_cons, List.drop_succ_cons]
          split
          · rw [List.length_cons]
            omega
          · exact Nat.zero_le _

/-- Reading on, one does not get back before a place that one has passed. -/
theorem Passed.of_ahead {least : Nat} {stop : Cursor} (hpassed : Passed place cursor)
    (hahead : cursor.Ahead least stop) : Passed place stop := by
  obtain ⟨count, -, -, rfl⟩ := hahead
  have hgap := length_takeWhile_le_add_drop isBlank count cursor.rest
  change place ≤ cursor.offset + (cursor.rest.takeWhile isBlank).length at hpassed
  change place ≤ cursor.offset + count + ((cursor.rest.drop count).takeWhile isBlank).length
  omega

end Passed

section Twins

variable {before after more left : List Char} {cursor other : Cursor}

namespace Level

theorem settled (hlevel : Level before after more cursor other) : Settled cursor := by
  obtain ⟨head, tail, hhead, htwins⟩ := hlevel
  exact @gap_eq_advance cursor [] _ htwins.rest nofun (by simpa using hhead)

theorem other_settled (hlevel : Level before after more cursor other) : Settled other := by
  obtain ⟨head, tail, hhead, htwins⟩ := hlevel
  exact @gap_eq_advance other [] _ htwins.other_rest nofun (by simpa using hhead)

theorem not_passed (hlevel : Level before after more cursor other) :
    ¬ Passed before.length cursor := by
  intro hpassed
  have hle := hpassed.le_of_settled hlevel.settled
  obtain ⟨head, tail, -, htwins⟩ := hlevel
  have hoffset := htwins.offset
  simp only [List.length_cons] at hoffset
  omega

end Level

namespace Twins

theorem advance {run others : List Char}
    (htwins : Twins before after more (run ++ others) cursor other)
    (hquotes : run.count '"' % 2 = 0) :
    Twins before after more others (cursor.advance run.length) (other.advance run.length) where
  suffix := (List.suffix_append run others).trans htwins.suffix
  offset := by
    have hoffset := htwins.offset
    simp only [List.length_append, Cursor.advance] at hoffset ⊢
    omega
  rest := by simp [Cursor.advance, htwins.rest]
  other_rest := by simp [Cursor.advance, htwins.other_rest]
  quotes := by
    have hall := htwins.quotes
    simp only [List.count_append] at hall
    omega

/-- Behind their blanks two places are level, unless the first one has come to the cut. -/
theorem gap (htwins : Twins before after more left cursor other) :
    Level before after more (language.gap false cursor) (language.gap false other) ∨
      Passed before.length cursor ∧ (language.gap false other).rest = more.dropWhile isBlank := by
  have hleft : left.takeWhile isBlank ++ left.dropWhile isBlank = left :=
    List.takeWhile_append_dropWhile
  have hblanks : ∀ char ∈ left.takeWhile isBlank, isBlank char :=
    List.all_eq_true.mp List.all_takeWhile
  have hhead := List.head?_dropWhile_not isBlank left
  generalize left.takeWhile isBlank = blanks at hleft hblanks
  generalize left.dropWhile isBlank = others at hleft hhead
  subst hleft
  cases others with
  | nil =>
      rw [List.append_nil] at htwins
      have hoffset := htwins.offset
      have hlength : blanks.length ≤ (cursor.rest.takeWhile isBlank).length := by
        rw [htwins.rest, List.takeWhile_append_of_pos hblanks, List.length_append]
        exact Nat.le_add_right _ _
      refine .inr ⟨?_, ?_⟩
      · change before.length ≤ cursor.offset + (cursor.rest.takeWhile isBlank).length
        omega
      · rw [rest_gap, htwins.other_rest, List.dropWhile_append_of_pos hblanks]
  | cons head tail =>
      have hblank : isBlank head = false := by simpa using hhead
      have hstart : ∀ rest, ∀ char ∈ (head :: tail ++ rest).head?, isBlank char = false := by
        simpa using hblank
      have hquotes : blanks.count '"' = 0 :=
        List.count_eq_zero.mpr (quote_not_mem_of_isBlank hblanks)
      rw [gap_eq_advance (htwins.rest.trans (List.append_assoc _ _ _)) hblanks (hstart after),
        gap_eq_advance (htwins.other_rest.trans (List.append_assoc _ _ _)) hblanks (hstart more)]
      exact .inl ⟨head, tail, hblank, htwins.advance (by omega)⟩

end Twins

/-- What is found at one of two level places beside what is found at the other one: nothing at
both, or something up to the same character. If it may pass the cut, it may also stop behind it. -/
inductive Beside (before after more : List Char) (mayPass : Bool) :
    Option (Found Rule) → Option (Found Rule) → Prop where
  | fails : Beside before after more mayPass none none
  | stays {left : List Char} {found next : Found Rule}
      (htwins : Twins before after more left found.stop next.stop) :
      Beside before after more mayPass (some found) (some next)
  | passes {found : Found Rule} {next : Option (Found Rule)} (hmay : mayPass = true)
      (hpassed : Passed before.length found.stop) :
      Beside before after more mayPass (some found) next

/-- Only where things stop matters. -/
theorem Beside.map {mayPass : Bool} {found next : Option (Found Rule)}
    {here there : Found Rule → Found Rule} (hhere : ∀ found, (here found).stop = found.stop)
    (hthere : ∀ found, (there found).stop = found.stop)
    (hbeside : Beside before after more mayPass found next) :
    Beside before after more mayPass (found.map here) (next.map there) := by
  cases hbeside with
  | fails => exact .fails
  | stays htwins => exact .stays (by rwa [hhere, hthere])
  | passes hmay hpassed => exact .passes hmay (by rwa [hhere])

theorem Beside.weaken {mayPass : Bool} {found next : Option (Found Rule)}
    (hbeside : Beside before after more mayPass found next) :
    Beside before after more true found next := by
  cases hbeside with
  | fails => exact .fails
  | stays htwins => exact .stays htwins
  | passes _ hpassed => exact .passes rfl hpassed

/-! ## Tokens -/

/-- A run that ends where another text begins, if it gets so far, is not longer in front of it. -/
theorem takeWhile_append_eq {accepts : Char → Bool} {left tail : List Char}
    (hstop : left.all accepts → ∀ char ∈ tail.head?, accepts char = false) :
    (left ++ tail).takeWhile accepts = left.takeWhile accepts := by
  rw [List.takeWhile_append]
  split
  next hlength =>
    have hwhole : left.takeWhile accepts = left :=
      (List.takeWhile_prefix accepts).eq_of_length hlength
    have hnil : tail.takeWhile accepts = [] := by
      have hhead := hstop (by rw [← hwhole]; exact List.all_takeWhile)
      cases tail with
      | nil => rfl
      | cons head rest => simp [hhead head rfl]
    rw [hnil, hwhole, List.append_nil]
  next => rfl

/-- A word that is found where a text starts, but not within its first part, goes on over it. -/
theorem exists_of_prefix_append {word left tail : List Char} (hfound : word <+: left ++ tail)
    (hwithin : ¬ word <+: left) :
    ∃ char rest, word = left ++ char :: rest ∧ char ∈ tail.head? := by
  obtain ⟨extra, rfl⟩ : left <+: word :=
    (List.prefix_or_prefix_of_prefix hfound (List.prefix_append left tail)).resolve_left hwithin
  cases extra with
  | nil => exact absurd (by simp) hwithin
  | cons char rest =>
      obtain ⟨others, rfl⟩ := (List.prefix_append_right_inj left).mp hfound
      exact ⟨char, rest, rfl, rfl⟩

/-- A rule that takes a run of some kind finds the same run in both texts if it ends before the
cut in both. -/
theorem beside_of_run {rule : Rule} {accepts : Char → Bool} (kind : List Char → Prop)
    [DecidablePred kind]
    (hfind : ∀ cursor, language.find false rule cursor =
      if kind (cursor.rest.takeWhile accepts) then
        some (leaf rule cursor (cursor.rest.takeWhile accepts).length) else none)
    (hquote : accepts '"' = false) (htwins : Twins before after more left cursor other)
    (hafter : (left ++ after).takeWhile accepts = left.takeWhile accepts)
    (hmore : (left ++ more).takeWhile accepts = left.takeWhile accepts) :
    Beside before after more false (language.find false rule cursor)
      (language.find false rule other) := by
  rw [hfind, hfind, htwins.rest, htwins.other_rest, hafter, hmore]
  split
  next =>
    have hleft : left.takeWhile accepts ++ left.dropWhile accepts = left :=
      List.takeWhile_append_dropWhile
    have hcount : (left.takeWhile accepts).count '"' = 0 := by
      refine List.count_eq_zero.mpr fun hmem => ?_
      have haccepts := List.all_eq_true.mp List.all_takeWhile '"' hmem
      rw [hquote] at haccepts
      cases haccepts
    rw [← hleft] at htwins
    exact .stays (htwins.advance (by omega))
  next => exact .fails

/-- A string that starts before the cut ends there. -/
theorem beside_str (hlevel : Level before after more cursor other) :
    Beside before after more false (language.find false .str cursor)
      (language.find false .str other) := by
  obtain ⟨head, tail, -, htwins⟩ := hlevel
  by_cases hhead : head = '"'
  · -- The number of quotes up to the cut is even, so the string is closed before it.
    subst hhead
    have hmem : '"' ∈ tail := by
      have hquotes := htwins.quotes
      rw [List.count_cons_self] at hquotes
      exact List.count_pos_iff.mp (by omega)
    obtain ⟨text, others, rfl, hnot⟩ := List.eq_append_cons_of_mem hmem
    have hleft : '"' :: (text ++ '"' :: others) = ('"' :: text ++ ['"']) ++ others := by simp
    rw [hleft] at htwins
    have hfound : ∀ (cursor : Cursor) rest, cursor.rest = ('"' :: text ++ ['"']) ++ rest →
        language.find false .str cursor =
          some (leaf .str cursor ('"' :: text ++ ['"']).length) := by
      intro cursor rest hrest
      exact find_str_eq_some_iff.mpr ⟨text, rest, hnot, hrest, leaf_of_eq_append hrest⟩
    have hcount : ('"' :: text ++ ['"']).count '"' = 2 := by
      simp [List.count_eq_zero.mpr hnot]
    rw [hfound cursor _ (htwins.rest.trans (List.append_assoc _ _ _)),
      hfound other _ (htwins.other_rest.trans (List.append_assoc _ _ _))]
    exact .stays (htwins.advance (by omega))
  · rw [find_str_eq_none htwins.rest hhead, find_str_eq_none htwins.other_rest hhead]
    exact .fails

namespace Seam

variable (hseam : Seam before after more)

include hseam

theorem stops_more {accepts : Char → Bool} (haccepts : ∀ char, accepts char → char.isAlphanum)
    (char : Char) (hchar : char ∈ more.head?) : accepts char = false := by
  refine Bool.eq_false_iff.mpr fun htrue => ?_
  have halphanum := haccepts char htrue
  rw [isAlphanum_eq_false_of_isBlank (hseam.blank char hchar)] at halphanum
  cases halphanum

/-- A rule that takes a lone word finds the same one in both texts. -/
theorem beside_of_word {rule : Rule} (kind : List Char → Prop) [DecidablePred kind]
    (hfind : ∀ cursor, language.find false rule cursor =
      if kind (cursor.rest.takeWhile isWordChar) then
        some (leaf rule cursor (cursor.rest.takeWhile isWordChar).length) else none)
    (hkind : ∀ run, kind run → run.head?.any Char.isAlpha)
    (hlevel : Level before after more cursor other) :
    Beside before after more false (language.find false rule cursor)
      (language.find false rule other) := by
  obtain ⟨head, tail, -, htwins⟩ := hlevel
  cases hhead : head.isAlpha with
  | true =>
      obtain ⟨start, hbefore⟩ := htwins.suffix
      refine beside_of_run kind hfind (by decide) htwins ?_ ?_
      · refine takeWhile_append_eq fun hall => ?_
        exact hseam.words start _ hbefore.symm hall (by simp [hhead])
      · exact takeWhile_append_eq fun _ => hseam.stops_more fun _ => id
  | false =>
      -- The run starts with another character than a letter, or is empty.
      have hnot : ∀ rest, ¬ kind ((head :: rest).takeWhile isWordChar) := by
        intro rest hrun
        have halpha := hkind _ hrun
        rw [List.takeWhile_cons] at halpha
        split at halpha
        · simp [hhead] at halpha
        · cases halpha
      rw [hfind, hfind, htwins.rest, htwins.other_rest, List.cons_append, List.cons_append,
        if_neg (hnot _), if_neg (hnot _)]
      exact .fails

theorem beside_ident (hlevel : Level before after more cursor other) :
    Beside before after more false (language.find false .ident cursor)
      (language.find false .ident other) := by
  refine hseam.beside_of_word (fun run => run.head?.any Char.isAlpha ∧ run ∉ reservedWords) ?_
    (fun _ hrun => hrun.1) hlevel
  intro cursor
  have hhead : (cursor.rest.takeWhile isWordChar).head?.any Char.isAlpha =
      cursor.rest.head?.any Char.isAlpha := by
    cases cursor.rest with
    | nil => rfl
    | cons head rest =>
        rw [List.takeWhile_cons]
        cases halpha : head.isAlpha with
        | true => simp [isWordChar_of_isAlpha halpha]
        | false => split <;> simp [halpha]
  rw [hhead]
  exact find_ident cursor

theorem beside_of_lone {rule : Rule} {word : List Char} (hword : word.head?.any Char.isAlpha)
    (hfind : ∀ cursor, language.find false rule cursor =
      if cursor.rest.takeWhile isWordChar = word then some (leaf rule cursor word.length)
      else none)
    (hlevel : Level before after more cursor other) :
    Beside before after more false (language.find false rule cursor)
      (language.find false rule other) := by
  refine hseam.beside_of_word (· = word) ?_ ?_ hlevel
  · intro cursor
    rw [hfind]
    split
    next heq => rw [heq]
    next => rfl
  · rintro _ rfl
    exact hword

theorem beside_int (hlevel : Level before after more cursor other) :
    Beside before after more true (language.find false .int cursor)
      (language.find false .int other) := by
  obtain ⟨head, tail, -, htwins⟩ := hlevel
  cases hall : (head :: tail).all Char.isDigit with
  | true =>
      have hdigits := List.all_eq_true.mp hall
      have hrun : cursor.rest.takeWhile Char.isDigit =
          (head :: tail) ++ after.takeWhile Char.isDigit := by
        rw [htwins.rest, List.takeWhile_append_of_pos hdigits]
      rw [find_int, hrun, if_pos (by simp)]
      refine .passes rfl (.of_le ?_)
      have hoffset := htwins.offset
      simp only [leaf, Cursor.advance, List.length_append]
      omega
  | false =>
      refine (beside_of_run (· ≠ []) find_int (by decide) htwins ?_ ?_).weaken
      · refine takeWhile_append_eq fun htrue => ?_
        rw [hall] at htrue
        cases htrue
      · exact takeWhile_append_eq fun _ => hseam.stops_more fun _ => isAlphanum_of_isDigit

/-- No word of letters goes on over the cut. -/
theorem all_isAlpha_eq_false {head char : Char} {tail rest : List Char}
    (hsuffix : head :: tail <:+ before) (hchar : char ∈ after.head?) :
    ((head :: tail) ++ char :: rest).all Char.isAlpha = false := by
  refine Bool.eq_false_iff.mpr fun hall => ?_
  obtain ⟨start, hbefore⟩ := hsuffix
  rw [List.all_append, Bool.and_eq_true, List.all_cons, List.all_cons, Bool.and_eq_true,
    Bool.and_eq_true] at hall
  obtain ⟨⟨hhead, htail⟩, hnext, -⟩ := hall
  have hword : (head :: tail).all Char.isAlphanum := by
    refine List.all_eq_true.mpr (List.forall_mem_cons.mpr ⟨isAlphanum_of_isAlpha hhead, ?_⟩)
    exact fun other hother => isAlphanum_of_isAlpha (List.all_eq_true.mp htail other hother)
  have hstops := hseam.words start _ hbefore.symm hword (by simp [hhead]) char hchar
  rw [isAlphanum_of_isAlpha hnext] at hstops
  cases hstops

/-- A word of the grammar is found in both texts, or it goes on over the cut. -/
theorem beside_word {word : List Char}
    (hword : ∀ char ∈ word, isBlank char = false ∧ char ≠ '"')
    (hlevel : Level before after more cursor other) :
    Beside before after more (!word.all Char.isAlpha)
      (language.scan false (.word word) cursor) (language.scan false (.word word) other) := by
  obtain ⟨head, tail, -, htwins⟩ := hlevel
  simp only [Grammar.scan_word, List.isPrefixOf_iff_prefix]
  rw [htwins.rest, htwins.other_rest]
  by_cases hprefix : word <+: head :: tail
  · obtain ⟨others, hothers⟩ := hprefix
    have hcount : word.count '"' = 0 :=
      List.count_eq_zero.mpr fun hmem => (hword '"' hmem).2 rfl
    rw [← hothers] at htwins ⊢
    rw [List.append_assoc, List.append_assoc, if_pos (List.prefix_append _ _),
      if_pos (List.prefix_append _ _)]
    exact .stays (htwins.advance (by omega))
  · -- Where the word is found nevertheless, it takes a character from behind the cut.
    have hnone : ¬ word <+: head :: tail ++ more := by
      intro hfound
      obtain ⟨char, rest, rfl, hchar⟩ := exists_of_prefix_append hfound hprefix
      have hblank := hseam.blank char hchar
      rw [(hword char (by simp)).1] at hblank
      cases hblank
    rw [if_neg hnone]
    split
    next hfound =>
      obtain ⟨char, rest, rfl, hchar⟩ := exists_of_prefix_append hfound hprefix
      refine .passes (by rw [hseam.all_isAlpha_eq_false htwins.suffix hchar]; rfl) (.of_le ?_)
      have hoffset := htwins.offset
      simp only [Cursor.advance, List.length_append]
      omega
    next => exact .fails

end Seam

end Twins

end PlZero
