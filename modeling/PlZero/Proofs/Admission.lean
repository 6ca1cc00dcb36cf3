import PlZero.Proofs.Peg.Forest
import PlZero.Proofs.Peg.Notes
import PlZero.Proofs.Stmt.Patterns

/-! # What could stand at a place

A place of a text admits a phrase if what precedes it can be completed through any such phrase.
Reading a part of a pattern leads to a place that admits the rest of it.
-/

namespace PlZero

open Peg PlZero.Language
open Relation (Comp ReflTransGen)

/-- Blanks before a phrase belong to it, or are behind it. -/
def Slides (relates : List Char → List Char → Prop) : Prop :=
  ∀ before input rest, Skips before input → relates input rest → Comp relates Skips before rest

theorem Slides.comp_skips {first next : List Char → List Char → Prop} (hslides : Slides next)
    {input middle rest : List Char} (hfirst : Comp first Skips input middle)
    (hnext : Comp next Skips middle rest) : Comp (Comp first next) Skips input rest := by
  obtain ⟨start, hfirst, hstart⟩ := hfirst
  obtain ⟨stop, hnext, hstop⟩ := hnext
  obtain ⟨last, hnext, hlast⟩ := hslides _ _ _ hstart hnext
  exact ⟨last, ⟨start, hfirst, hnext⟩, hlast.trans hstop⟩

theorem Peg.slides_phrase (peg : Peg Rule) : Slides peg.Phrase := fun _ _ _ => Phrase.of_skips

theorem slides_eq : Slides Eq := by
  rintro before input _ hskips rfl
  exact ⟨before, rfl, hskips⟩

section Admits

variable {good : List Char → Prop} {first next relates : List Char → List Char → Prop}

/-- At a place between `before` and `rest`, any phrase in front of `tail` makes a good text, as
long as it starts with a blank or as `rest` does. -/
def Admits (good : List Char → Prop) (tail before rest : List Char)
    (relates : List Char → List Char → Prop) : Prop :=
  ∀ input, StartsLike rest input → Comp relates Skips input tail → good (before ++ input)

namespace Admits

variable {tail before rest middle : List Char}

theorem mono (hadmits : Admits good tail before rest relates)
    (himp : ∀ input rest, next input rest → relates input rest) :
    Admits good tail before rest next := by
  rintro input hlike ⟨stop, hnext, hstop⟩
  exact hadmits input hlike ⟨stop, himp _ _ hnext, hstop⟩

/-- The first part is admitted in front of some phrase of the second one. -/
theorem front (hadmits : Admits good tail before rest (Comp first next)) (hslides : Slides next)
    (hnext : next middle tail) : Admits good middle before rest first :=
  fun input hlike hfirst =>
    hadmits input hlike (hslides.comp_skips hfirst ⟨tail, hnext, .refl tail⟩)

/-- Behind the first part the second one is admitted. -/
theorem behind {stop : List Char} (hadmits : Admits good tail before rest (Comp first next))
    (hslides : Slides next) (hportable : Portable first rest middle) (hstop : Skips middle stop) :
    ∃ taken, rest = taken ++ stop ∧ Admits good tail (before ++ taken) stop next := by
  obtain ⟨used, rfl, hused⟩ := hportable
  obtain ⟨blanks, hblanks, rfl⟩ := hstop
  refine ⟨used ++ blanks, (List.append_assoc _ _ _).symm, fun input hlike hnext => ?_⟩
  have hfirst := hused (blanks ++ input) (hlike.append blanks)
  have hgood := hadmits (used ++ (blanks ++ input)) ((hlike.append blanks).append used)
    (hslides.comp_skips ⟨_, hfirst, ⟨blanks, hblanks, rfl⟩⟩ hnext)
  simpa using hgood

end Admits

/-- What was taken between two places makes up for the difference of their offsets. -/
theorem length_append_taken {before taken : List Char} {cursor stop : Cursor}
    (hbefore : before.length = cursor.offset) (htaken : cursor.rest = taken ++ stop.rest)
    (hahead : cursor.Ahead 0 stop) : (before ++ taken).length = stop.offset := by
  obtain ⟨count, -, hcount, rfl⟩ := hahead
  have hlength := congrArg List.length htaken
  simp only [Cursor.advance, List.length_append, List.length_drop] at hlength ⊢
  omega

/-- A place of a text admits a phrase in front of nothing or a blank. -/
def AdmitsAt (good : List Char → Prop) (text : List Char) (cursor : Cursor)
    (relates : List Char → List Char → Prop) : Prop :=
  ∃ before tail, text = before ++ cursor.rest ∧ before.length = cursor.offset ∧
    StartsLike [] tail ∧ Admits good tail before cursor.rest relates

namespace AdmitsAt

variable {text : List Char} {cursor stop : Cursor}

theorem mono (hadmits : AdmitsAt good text cursor relates)
    (himp : ∀ input rest, next input rest → relates input rest) :
    AdmitsAt good text cursor next := by
  obtain ⟨before, tail, htext, hbefore, htail, hadmits⟩ := hadmits
  exact ⟨before, tail, htext, hbefore, htail, hadmits.mono himp⟩

theorem front (hadmits : AdmitsAt good text cursor (Comp first next)) (hslides : Slides next)
    (hnext : ∀ tail, StartsLike [] tail → ∃ middle, StartsLike [] middle ∧ next middle tail) :
    AdmitsAt good text cursor first := by
  obtain ⟨before, tail, htext, hbefore, htail, hadmits⟩ := hadmits
  obtain ⟨middle, hmiddle, hnext⟩ := hnext tail htail
  exact ⟨before, middle, htext, hbefore, hmiddle, hadmits.front hslides hnext⟩

theorem behind (hadmits : AdmitsAt good text cursor (Comp first next)) (hslides : Slides next)
    (hportable : ∀ input rest, first input rest → Portable first input rest)
    (hahead : cursor.Ahead 0 stop) (hfirst : Comp first Skips cursor.rest stop.rest) :
    AdmitsAt good text stop next := by
  obtain ⟨before, tail, htext, hbefore, htail, hadmits⟩ := hadmits
  obtain ⟨middle, hfirst, hmiddle⟩ := hfirst
  obtain ⟨taken, htaken, hadmits⟩ := hadmits.behind hslides (hportable _ _ hfirst) hmiddle
  exact ⟨before ++ taken, tail, by rw [htext, htaken, List.append_assoc],
    length_append_taken hbefore htaken hahead, htail, hadmits⟩

theorem skip (hadmits : AdmitsAt good text cursor relates) (hslides : Slides relates)
    (hahead : cursor.Ahead 0 stop) (hskips : Skips cursor.rest stop.rest) :
    AdmitsAt good text stop relates := by
  have hcomp : AdmitsAt good text cursor (Comp Eq relates) := by
    refine hadmits.mono ?_
    rintro _ _ ⟨_, rfl, hrelates⟩
    exact hrelates
  refine hcomp.behind hslides ?_ hahead ⟨cursor.rest, rfl, hskips⟩
  rintro input _ rfl
  exact .nil fun _ => rfl

end AdmitsAt

end Admits

end PlZero
