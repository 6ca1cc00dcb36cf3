import PlZero.Proofs.Grammar.Runs
import PlZero.Proofs.Text.Literals

/-! # Layout

Outside of literals blanks can stand for other blanks. At both ends of a text and beside some
signs they can also be put in and left out. A text and its edited copy are followed from left to
right: up to the place of the edit they are the same, and so they are behind it.
-/

namespace PlZero.Text

/-- The characters beside which blanks can be left out. -/
def signs : List Char := ['(', ')', '\x7b', '\x7d', '+', '-', '*', '/', '%', '!']

/-- Blanks can be left out between two pieces of a text: one of them is empty, or a sign stands
beside the place. -/
def Free (before after : List Char) : Prop :=
  before = [] ∨ after = [] ∨ (∃ sign ∈ before.getLast?, sign ∈ signs) ∨
    ∃ sign ∈ after.head?, sign ∈ signs

/-- Blanks are exchanged for others in one place outside of literals, which is one with an even
number of quotes in front of it. Only where they can be left out there may be none before or
after the edit. -/
inductive Edit : List Char → List Char → Prop where
  | blanks {before old new after} :
      before.count '"' % 2 = 0 → (∀ char ∈ old, isBlank char) → (∀ char ∈ new, isBlank char) →
      (old ≠ [] ∧ new ≠ []) ∨ Free before after →
      Edit (before ++ (old ++ after)) (before ++ (new ++ after))

theorem Edit.symm {source other : List Char} (hedit : Edit source other) : Edit other source := by
  cases hedit with
  | blanks heven hold hnew hplace => exact .blanks heven hnew hold (hplace.imp_left And.symm)

theorem Edit.literals_eq {source other : List Char} (hedit : Edit source other) :
    literals source = literals other := by
  cases hedit with
  | blanks heven hold hnew hplace =>
      rw [literals_append heven, literals_append heven,
        literals_append_of_not_mem (quote_not_mem_of_isBlank hold),
        literals_append_of_not_mem (quote_not_mem_of_isBlank hnew)]

/-! ## From left to right -/

/-- What stands in front of a place: the start of the text or a sign, any other character outside
of literals, or the start of a literal. -/
inductive Place where
  | loose
  | tight
  | quoted
  deriving DecidableEq

/-- The place behind a character. -/
def Place.behind : Place → Char → Place
  | .quoted, char => if char = '"' then .tight else .quoted
  | _, char => if char = '"' then .quoted else if char ∈ signs then .loose else .tight

/-- Two texts behind a place that are the same but for the blanks in one place. -/
inductive Relaid : Place → List Char → List Char → Prop where
  | refl {place rest} : Relaid place rest rest
  | blanks {place old new after} :
      place ≠ .quoted → (∀ char ∈ old, isBlank char) → (∀ char ∈ new, isBlank char) →
      (old ≠ [] ∧ new ≠ []) ∨ place = .loose ∨ after = [] ∨ (∃ sign ∈ after.head?, sign ∈ signs) →
      Relaid place (old ++ after) (new ++ after)
  | cons {place char rest other} : Relaid (place.behind char) rest other →
      Relaid place (char :: rest) (char :: other)

namespace Place

variable {place : Place}

/-- A place is in a literal if an odd number of quotes stands in front of it. -/
theorem foldl_behind_eq_quoted_iff (place : Place) (before : List Char) :
    before.foldl behind place = .quoted ↔
      (place = .quoted ↔ before.count '"' % 2 = 0) := by
  induction before generalizing place with
  | nil => simp
  | cons char before ih =>
      rw [List.foldl_cons, ih]
      by_cases hquote : char = '"'
      · subst hquote
        have hparity : (before.count '"' + 1) % 2 = 0 ↔ ¬ before.count '"' % 2 = 0 := by omega
        cases place <;> simp [behind, hparity]
      · cases place <;> by_cases hsign : char ∈ signs <;> simp [behind, hquote, hsign]

/-- Outside of literals, the place behind a sign is one where blanks can be left out. -/
theorem behind_eq_loose {sign : Char} (hsign : sign ∈ signs)
    (hplace : place.behind sign ≠ .quoted) : place.behind sign = .loose := by
  have hquote : sign ≠ '"' := by
    rintro rfl
    revert hsign
    decide
  cases place <;> simp_all [behind]

end Place

theorem Relaid.append {place : Place} {before rest other : List Char}
    (hrelaid : Relaid (before.foldl Place.behind place) rest other) :
    Relaid place (before ++ rest) (before ++ other) := by
  induction before generalizing place with
  | nil => exact hrelaid
  | cons char before ih => exact .cons (ih hrelaid)

theorem Edit.relaid {source other : List Char} (hedit : Edit source other) :
    Relaid .loose source other := by
  cases hedit with
  | @blanks before old new after heven hold hnew hplace =>
      have houtside : before.foldl Place.behind .loose ≠ .quoted := by
        simp [Place.foldl_behind_eq_quoted_iff, heven]
      refine .append (.blanks houtside hold hnew (hplace.imp_right ?_))
      rintro (rfl | hafter | ⟨sign, hlast, hsign⟩ | hhead)
      · exact .inl rfl
      · exact .inr (.inl hafter)
      · obtain ⟨start, rfl⟩ := List.getLast?_eq_some_iff.mp hlast
        rw [List.foldl_append] at houtside ⊢
        exact .inl (Place.behind_eq_loose hsign houtside)
      · exact .inr (.inr hhead)

/-- A character that a token goes on with: no blank, no quote and no sign. -/
def isPlain (char : Char) : Bool := !isBlank char && char != '"' && !signs.contains char

theorem isPlain_iff {char : Char} :
    isPlain char ↔ isBlank char = false ∧ char ≠ '"' ∧ char ∉ signs := by
  simp [isPlain, and_assoc]

theorem isPlain_of_isAlphanum {char : Char} (halphanum : char.isAlphanum) : isPlain char := by
  refine isPlain_iff.mpr ⟨isBlank_eq_false_of_isAlphanum halphanum, ?_, fun hsign => ?_⟩
  · rintro rfl
    revert halphanum
    decide
  · have hsigns : signs.all (!Char.isAlphanum ·) := by decide
    simpa [halphanum] using List.all_eq_true.mp hsigns char hsign

namespace Place

theorem behind_eq_tight {place : Place} {char : Char} (hplace : place ≠ .quoted)
    (hquote : char ≠ '"') (hsign : char ∉ signs) : place.behind char = .tight := by
  cases place <;> simp_all [behind]

theorem behind_of_isBlank {place : Place} {blank : Char} (hplace : place ≠ .quoted)
    (hblank : isBlank blank) : place.behind blank = .tight := by
  refine behind_eq_tight hplace ?_ fun hsign => ?_
  · rintro rfl
    revert hblank
    decide
  · have hsigns : signs.all (!isBlank ·) := by decide
    simpa [hblank] using List.all_eq_true.mp hsigns blank hsign

end Place

namespace Relaid

variable {place : Place} {input other rest : List Char}

/-- What follows the blanks stays what it is. -/
theorem exists_of_skips {head : Char} (hrelaid : Relaid place input other)
    (hplace : place ≠ .quoted) (hskips : Skips input (head :: rest))
    (hhead : isBlank head = false) :
    ∃ stop, Skips other (head :: stop) ∧ Relaid (Place.loose.behind head) rest stop := by
  induction hrelaid with
  | refl => exact ⟨rest, hskips, .refl⟩
  | blanks _ hold hnew _ =>
      refine ⟨rest, ?_, .refl⟩
      have hdrop := hskips.dropWhile_eq_cons hhead
      rw [List.dropWhile_append_of_pos hold] at hdrop
      exact Skips.trans ⟨_, hnew, rfl⟩ (hdrop ▸ Skips.dropWhile _)
  | @cons place char input other hrelaid ih =>
      obtain ⟨blanks, hblanks, heq⟩ := hskips
      cases blanks with
      | nil =>
          obtain ⟨rfl, rfl⟩ := List.cons.inj heq
          refine ⟨other, .refl _, ?_⟩
          cases place with
          | quoted => exact absurd rfl hplace
          | _ => exact hrelaid
      | cons blank blanks =>
          obtain ⟨rfl, rfl⟩ := List.cons.inj heq
          obtain ⟨hblank, hblanks⟩ := List.forall_mem_cons.mp hblanks
          have hbehind := Place.behind_of_isBlank hplace hblank
          obtain ⟨stop, hstop, hrelaid⟩ := ih (by simp [hbehind]) ⟨blanks, hblanks, rfl⟩
          refine ⟨stop, Skips.trans ⟨[char], ?_, rfl⟩ hstop, hrelaid⟩
          exact List.forall_mem_singleton.mpr hblank

/-- Where nothing but blanks is left, nothing else is put in. -/
theorem skips_nil (hrelaid : Relaid place input other) (hskips : Skips input []) :
    Skips other [] := by
  induction hrelaid with
  | refl => exact hskips
  | blanks _ hold hnew _ =>
      rw [Skips.nil_iff, List.dropWhile_append_of_pos hold] at hskips
      rwa [Skips.nil_iff, List.dropWhile_append_of_pos hnew]
  | @cons place char rest other _ ih =>
      rw [Skips.nil_iff, List.dropWhile_cons] at hskips
      split at hskips
      next hblank =>
        have hother := Skips.nil_iff.mp (ih (Skips.nil_iff.mpr hskips))
        rwa [Skips.nil_iff, List.dropWhile_cons_of_pos hblank]
      next => cases hskips

/-- Nothing is put into a run of plain characters that has begun. -/
theorem exists_of_isPlain {run : List Char} (hrelaid : Relaid .tight (run ++ rest) other)
    (hrun : ∀ char ∈ run, isPlain char) :
    ∃ stop, other = run ++ stop ∧ Relaid .tight rest stop := by
  induction run generalizing other with
  | nil => exact ⟨other, rfl, hrelaid⟩
  | cons char run ih =>
      obtain ⟨hchar, hrun⟩ := List.forall_mem_cons.mp hrun
      obtain ⟨hblank, hquote, hsign⟩ := isPlain_iff.mp hchar
      generalize hinput : char :: run ++ rest = input at hrelaid
      cases hrelaid with
      | refl => exact ⟨rest, hinput.symm, .refl⟩
      | @blanks _ old new after _ hold _ hplace =>
          exfalso
          cases old with
          | nil =>
              obtain rfl : _ = after := hinput
              simp [hsign] at hplace
          | cons blank old =>
              obtain ⟨rfl, -⟩ := List.cons.inj hinput
              rw [(List.forall_mem_cons.mp hold).1] at hblank
              cases hblank
      | @cons _ head input other hrelaid =>
          obtain ⟨rfl, rfl⟩ := List.cons.inj hinput
          rw [Place.behind_eq_tight (by decide) hquote hsign] at hrelaid
          obtain ⟨stop, rfl, hstop⟩ := ih hrelaid hrun
          exact ⟨stop, rfl, hstop⟩

/-- A run of plain characters behind blanks stays what it is. -/
theorem exists_of_skips_run {run : List Char} (hrelaid : Relaid place input other)
    (hplace : place ≠ .quoted) (hskips : Skips input (run ++ rest)) (hnil : run ≠ [])
    (hrun : ∀ char ∈ run, isPlain char) :
    ∃ stop, Skips other (run ++ stop) ∧ Relaid .tight rest stop := by
  obtain ⟨head, tail, rfl⟩ := List.exists_cons_of_ne_nil hnil
  obtain ⟨hhead, htail⟩ := List.forall_mem_cons.mp hrun
  obtain ⟨hblank, hquote, hsign⟩ := isPlain_iff.mp hhead
  obtain ⟨middle, hskips, hrelaid⟩ := hrelaid.exists_of_skips hplace hskips hblank
  rw [Place.behind_eq_tight (by decide) hquote hsign] at hrelaid
  obtain ⟨stop, rfl, hstop⟩ := hrelaid.exists_of_isPlain htail
  exact ⟨stop, hskips, hstop⟩

/-- Nothing is put into a literal. -/
theorem exists_of_quoted {text : List Char} (hrelaid : Relaid .quoted (text ++ '"' :: rest) other)
    (hquote : '"' ∉ text) : ∃ stop, other = text ++ '"' :: stop ∧ Relaid .tight rest stop := by
  induction text generalizing other with
  | nil =>
      generalize hinput : [] ++ '"' :: rest = input at hrelaid
      cases hrelaid with
      | refl => exact ⟨rest, hinput.symm, .refl⟩
      | blanks hplace => exact absurd rfl hplace
      | @cons _ head input other hrelaid =>
          obtain ⟨rfl, rfl⟩ := List.cons.inj hinput
          exact ⟨other, rfl, hrelaid⟩
  | cons char text ih =>
      obtain ⟨hchar, htext⟩ := List.ne_and_not_mem_of_not_mem_cons hquote
      generalize hinput : char :: text ++ '"' :: rest = input at hrelaid
      cases hrelaid with
      | refl => exact ⟨rest, hinput.symm, .refl⟩
      | blanks hplace => exact absurd rfl hplace
      | @cons _ head input other hrelaid =>
          obtain ⟨rfl, rfl⟩ := List.cons.inj hinput
          rw [Place.behind, if_neg hchar.symm] at hrelaid
          obtain ⟨stop, rfl, hstop⟩ := ih hrelaid htext
          exact ⟨stop, rfl, hstop⟩

/-- What ends a run of characters that are neither blanks nor signs is a blank or a sign, and
still ends it if the blanks are others. -/
theorem stops {accepts : Char → Bool} (hrelaid : Relaid .tight rest other)
    (haccepts : ∀ char, accepts char → isPlain char)
    (hstops : ∀ char ∈ rest.head?, accepts char = false) :
    ∀ char ∈ other.head?, accepts char = false := by
  cases hrelaid with
  | refl => exact hstops
  | cons => exact hstops
  | @blanks _ old new after _ _ hnew hplace =>
      intro char hchar
      refine Bool.eq_false_iff.mpr fun haccept => ?_
      obtain ⟨hblank, -, hsign⟩ := isPlain_iff.mp (haccepts char haccept)
      cases new with
      | nil =>
          rcases hplace with ⟨-, hnew⟩ | hplace | rfl | ⟨sign, hhead, hmem⟩
          · exact hnew rfl
          · cases hplace
          · cases hchar
          · rw [Option.mem_unique hchar hhead] at hsign
            exact hsign hmem
      | cons blank new =>
          obtain rfl : blank = char := by simpa using hchar
          rw [(List.forall_mem_cons.mp hnew).1] at hblank
          cases hblank

end Relaid

end PlZero.Text
