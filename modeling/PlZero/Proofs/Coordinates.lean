import PlZero.Proofs.Expected
import PlZero.Proofs.Shape

/-! # The place of an error

An error stands on a character that is no blank, or at the end of its source. Its offset, its line
and its column, its range, the fragment of the source and the mark below the fragment are counted
in different ways, and all of them tell of this one place.
-/

namespace PlZero

open PlZero.Language

/-- A fragment is shown on a line of its own, and the next line has a mark below one of its
places. Nothing before the mark looks like it, unless the fragment does. -/
def MarksBelow (shown fragment : List Char) (place : Nat) : Prop :=
  ∃ heading margin row rest, shown = heading ++ margin ++ fragment ++ '\n' :: row ++ '^' :: rest ∧
    (∀ char ∈ heading.getLast?, char = '\n') ∧ '\n' ∉ margin ++ fragment ++ row ∧
    '^' ∉ heading ++ margin ++ row ∧ row.length = margin.length + place

namespace SyntaxError

variable {error : SyntaxError} {before after : List Char}

/-- An error starts behind some characters of its source, and no blank stands there. -/
structure StartsAt (error : SyntaxError) (before after : List Char) : Prop where
  source_eq : error.source.toList = before ++ after
  start_eq : error.start = before.length
  not_blank : ∀ char ∈ after.head?, isBlank char = false

namespace StartsAt

theorem offset_eq (hstarts : error.StartsAt before after) :
    error.offset = Text.byteLength before := by
  rw [offset, byteOffset, hstarts.source_eq, hstarts.start_eq, List.take_left]

theorem lineCol_eq (hstarts : error.StartsAt before after) :
    error.lineCol = (1 + before.count '\n', 1 + (Text.lastLine before).length) := by
  rw [lineCol, hstarts.source_eq, hstarts.start_eq, List.take_left, Text.lineCol, Nat.add_comm,
    Nat.add_comm (Text.lastLine before).length]

theorem atLineEnd_eq_false (hstarts : error.StartsAt before after) : error.atLineEnd = false := by
  have hchar : error.source.toList[error.start]? = after.head? := by
    rw [hstarts.source_eq, hstarts.start_eq, List.getElem?_append_right (Nat.le_refl _),
      Nat.sub_self, List.head?_eq_getElem?]
  rw [atLineEnd, hchar]
  cases hhead : after.head? with
  | none => simp
  | some char =>
      have hblank := hstarts.not_blank char hhead
      simp only [isBlank, Bool.or_eq_false_iff] at hblank
      simp [hblank]

/-- The fragment is the line around the place without its carriage returns. -/
theorem fragment_eq (hstarts : error.StartsAt before after) :
    error.fragment =
      (Text.lastLine before ++ after.takeWhile (· ≠ '\n')).filter (· ≠ '\r') := by
  rw [fragment, hstarts.atLineEnd_eq_false, hstarts.source_eq, hstarts.start_eq,
    ← Text.filter_lineAround, List.filter_filter]
  simp

/-- Behind the characters of its line that precede the place, the fragment goes on with the
character there. -/
theorem head?_drop_fragment (hstarts : error.StartsAt before after) :
    (error.fragment.drop
      (error.lineCol.2 - 1 - (Text.lastLine before).count '\r')).head? = after.head? := by
  rw [hstarts.lineCol_eq, hstarts.fragment_eq, List.filter_append, Nat.add_sub_cancel_left,
    ← Text.length_filter_ne, List.drop_left]
  cases after with
  | nil => rfl
  | cons head after =>
      have hblank := hstarts.not_blank head rfl
      simp only [isBlank, Bool.or_eq_false_iff, decide_eq_false_iff_not] at hblank
      simp [hblank]

end StartsAt

/-- A place of the source is told in characters as it is, though it is passed on in bytes. -/
theorem placeIn_byteOffset {chars : Nat} (hchars : chars ≤ error.source.toList.length) :
    placeIn error.source (error.byteOffset chars) = chars := by
  rw [placeIn, byteOffset, Text.charsWithin?_byteLength_take hchars, Option.getD_some]

/-! ## The mark below the fragment -/

/-- Without carriage returns in front of it, the place is as far in the fragment as in its
line. -/
theorem StartsAt.fragment_eq_append (hstarts : error.StartsAt before after)
    (hreturn : '\r' ∉ Text.lastLine before) :
    ∃ more, error.fragment = Text.lastLine before ++ more := by
  refine ⟨(after.takeWhile (· ≠ '\n')).filter (· ≠ '\r'), ?_⟩
  rw [hstarts.fragment_eq, List.filter_append, List.filter_eq_self.mpr]
  intro char hchar
  exact decide_eq_true fun heq => hreturn (heq ▸ hchar)

theorem StartsAt.not_mem_fragment (hstarts : error.StartsAt before after) :
    '\n' ∉ error.fragment := by
  rw [hstarts.fragment_eq]
  intro hfeed
  rcases List.mem_append.mp (List.mem_filter.mp hfeed).1 with hfeed | hfeed
  · exact (Text.isLastLine_lastLine before).1 hfeed
  · exact (Text.isFirstLine_takeWhile after).1 hfeed

/-- What is shown in place of the number of the line. -/
def indent (error : SyntaxError) : List Char :=
  List.replicate (toString error.lineCol.1).length ' '

/-- The lines above the fragment. -/
def heading (error : SyntaxError) : List Char :=
  error.indent ++ "--> ".toList ++ (toString error.lineCol.1).toList ++ ":".toList ++
    (toString error.lineCol.2).toList ++ "\n".toList ++ error.indent ++ " |\n".toList

/-- What precedes the fragment on its line. -/
def margin (error : SyntaxError) : List Char := (toString error.lineCol.1).toList ++ " | ".toList

/-- What precedes the mark on its line. -/
def row (error : SyntaxError) : List Char :=
  error.indent ++ " | ".toList ++
    (error.fragment.take (error.lineCol.2 - 1)).map fun char => if char = '\t' then '\t' else ' '

theorem exists_mark_eq (error : SyntaxError) : ∃ more, error.mark.toList = '^' :: more := by
  unfold mark
  split
  · exact ⟨_, rfl⟩
  · split
    · exact ⟨_, rfl⟩
    · exact ⟨_, by simp; rfl⟩

theorem exists_toList_render_eq (error : SyntaxError) :
    ∃ more, error.render.toList =
      error.heading ++ error.margin ++ error.fragment ++ '\n' :: error.row ++ '^' :: more := by
  obtain ⟨more, hmark⟩ := error.exists_mark_eq
  refine ⟨more ++ '\n' :: error.indent ++ " |\n".toList ++ error.indent ++ " = ".toList ++
    error.message.toList, ?_⟩
  have hfeed : "\n".toList = ['\n'] := rfl
  unfold render
  simp only [String.toList_append, String.toList_ofList, hmark, hfeed, heading, margin, row, indent,
    List.append_assoc, List.cons_append, List.nil_append]

theorem isDigit_of_mem_toDigits {number : Nat} {char : Char}
    (hchar : char ∈ Nat.toDigits 10 number) : char.isDigit :=
  Nat.isDigit_of_mem_toDigits (by decide) (Nat.le_refl 10) hchar

/-- Neither a line feed nor a mark is part of a number. -/
theorem not_mem_toDigits (number : Nat) :
    '\n' ∉ Nat.toDigits 10 number ∧ '^' ∉ Nat.toDigits 10 number :=
  ⟨fun hfeed => absurd (isDigit_of_mem_toDigits hfeed) (by decide),
    fun hmark => absurd (isDigit_of_mem_toDigits hmark) (by decide)⟩

theorem not_mem_indent (error : SyntaxError) : '\n' ∉ error.indent ∧ '^' ∉ error.indent := by
  simp [indent]

theorem getLast?_heading (error : SyntaxError) : error.heading.getLast? = some '\n' := by
  rw [heading, List.getLast?_append]
  rfl

theorem not_mem_heading (error : SyntaxError) : '^' ∉ error.heading := by
  simp [heading, error.not_mem_indent, not_mem_toDigits]

theorem not_mem_margin (error : SyntaxError) : '\n' ∉ error.margin ∧ '^' ∉ error.margin := by
  simp [margin, not_mem_toDigits]

theorem not_mem_row (error : SyntaxError) : '\n' ∉ error.row ∧ '^' ∉ error.row := by
  -- Whatever the fragment holds, only its tabs are kept in the row.
  have hpad {char : Char} (hchar : char ∈ error.row) : char ∈ "\t |".toList := by
    simp only [row, indent, List.mem_append, List.mem_map] at hchar
    rcases hchar with (hchar | hchar) | ⟨shown, -, rfl⟩
    · rw [List.eq_of_mem_replicate hchar]
      decide
    · exact (by decide : " | ".toList ⊆ "\t |".toList) hchar
    · split <;> decide
  exact ⟨fun hfeed => absurd (hpad hfeed) (by decide),
    fun hmark => absurd (hpad hmark) (by decide)⟩

theorem length_row (hstarts : error.StartsAt before after)
    (hreturn : '\r' ∉ Text.lastLine before) :
    error.row.length = error.margin.length + (Text.lastLine before).length := by
  obtain ⟨more, hfragment⟩ := hstarts.fragment_eq_append hreturn
  have hcolumn : error.lineCol.2 - 1 = (Text.lastLine before).length := by
    rw [hstarts.lineCol_eq, Nat.add_sub_cancel_left]
  rw [row, margin, hcolumn, hfragment, List.take_left]
  simp only [indent, List.length_append, List.length_replicate, List.length_map,
    String.length_toList]

/-- The mark stands below the place. -/
theorem StartsAt.marksBelow (hstarts : error.StartsAt before after)
    (hreturn : '\r' ∉ Text.lastLine before) :
    MarksBelow error.render.toList error.fragment (Text.lastLine before).length := by
  obtain ⟨more, hrender⟩ := error.exists_toList_render_eq
  refine ⟨error.heading, error.margin, error.row, more, hrender, ?_, ?_, ?_,
    length_row hstarts hreturn⟩
  · simp [error.getLast?_heading]
  · simp [error.not_mem_margin, hstarts.not_mem_fragment, error.not_mem_row]
  · simp [error.not_mem_heading, error.not_mem_margin, error.not_mem_row]

/-! ## All coordinates -/

/-- The characters at the place of an error that it is about: none if the text does not match, and
otherwise the digits of a literal that is no word, all of them. -/
def Cause.Covers (after covered : List Char) : Cause → Prop
  | .unexpected _ => covered = []
  | .oversized digits =>
      covered = digits.toList ∧ covered ≠ [] ∧ intOfDigits? covered = none ∧
        ∃ rest, WholeRun Char.isDigit after covered rest
  | .misshapen _ => False

/-- All coordinates of an error tell of the place between two parts of the source, which is at the
end or holds a character that is no blank. The line around the place is `left` and `right`. -/
structure PointsAt (error : SyntaxError) (source : String)
    (before after left right covered : List Char) : Prop where
  source_eq : source.toList = before ++ after
  left_eq : Text.IsLastLine before left
  right_eq : Text.IsFirstLine after right
  not_blank : ∀ char ∈ after.head?, isBlank char = false
  covers : error.cause.Covers after covered
  offset_eq : error.offset = Text.byteLength before
  lineCol_eq : error.lineCol = (1 + before.count '\n', 1 + left.length)
  range?_eq : (error.diagnostic source).range? =
    some (before.length, before.length + covered.length)
  fragment_eq : error.fragment = (left ++ right).filter (· ≠ '\r')
  head?_drop_fragment :
    (error.fragment.drop (error.lineCol.2 - 1 - left.count '\r')).head? = after.head?
  marksBelow : '\r' ∉ left → MarksBelow error.render.toList error.fragment left.length

theorem Cause.Covers.exists_eq_append {cause : Cause} {after covered : List Char}
    (hcovers : cause.Covers after covered) : ∃ rest, after = covered ++ rest := by
  cases cause with
  | unexpected expected =>
      obtain rfl : covered = [] := hcovers
      exact ⟨after, rfl⟩
  | oversized digits =>
      obtain ⟨-, -, -, rest, hrun⟩ := hcovers
      exact ⟨rest, hrun.eq_append⟩
  | misshapen rule => cases hcovers

/-- An error points at the place where it starts. -/
theorem StartsAt.pointsAt {covered : List Char} (hstarts : error.StartsAt before after)
    (hcovers : error.cause.Covers after covered)
    (hstop : error.stop = before.length + covered.length) :
    error.PointsAt error.source before after (Text.lastLine before)
      (after.takeWhile (· ≠ '\n')) covered where
  source_eq := hstarts.source_eq
  left_eq := Text.isLastLine_lastLine before
  right_eq := Text.isFirstLine_takeWhile after
  not_blank := hstarts.not_blank
  covers := hcovers
  offset_eq := hstarts.offset_eq
  lineCol_eq := hstarts.lineCol_eq
  range?_eq := by
    -- The stop has to be a place of the source too, so what is covered has to be part of it.
    obtain ⟨rest, hafter⟩ := hcovers.exists_eq_append
    have hlength : error.source.toList.length = before.length + (covered.length + rest.length) := by
      rw [hstarts.source_eq, hafter, List.length_append, List.length_append]
    have hstart := hstarts.start_eq
    rw [diagnostic, Diagnostic.range?, offset, placeIn_byteOffset (by omega),
      placeIn_byteOffset (by omega), hstart, hstop]
  fragment_eq := hstarts.fragment_eq
  head?_drop_fragment := hstarts.head?_drop_fragment
  marksBelow := hstarts.marksBelow

end SyntaxError

namespace Entry

variable {entry : Entry} {source : String}

/-- An error of a text that does not match points at the place that it has been read up to. -/
theorem exists_pointsAt_of_match {trace : Peg.Trace Rule}
    (hmatch : language.match? entry.rule source.toList = .error trace) :
    ∃ before after left right covered,
      (SyntaxError.ofTrace source trace).PointsAt source before after left right covered := by
  obtain ⟨hnil, hamong⟩ := notable_of_match hmatch
  obtain ⟨rule, hrule⟩ := List.exists_mem_of_ne_nil _ hnil
  obtain ⟨before, after, htext, hoffset, hblank, -⟩ := hamong rule hrule
  have hstarts : (SyntaxError.ofTrace source trace).StartsAt before after :=
    ⟨htext, hoffset.symm, hblank⟩
  exact ⟨_, _, _, _, [], hstarts.pointsAt rfl hoffset.symm⟩

theorem exists_pointsAt_of_literal {offset : Nat} {digits : List Char}
    (hliteral : LiteralIn source.toList offset digits) (hword : intOfDigits? digits = none) :
    ∃ before after left right covered,
      (SyntaxError.ofTreeError source (.oversized offset digits)).PointsAt source before after left
        right covered := by
  obtain ⟨hnil, rest, hrun⟩ := hliteral
  -- There are digits behind the offset, so it does not lie behind the end of the source.
  have hoffset : (source.toList.take offset).length = offset := by
    refine List.length_take_of_le (Nat.le_of_lt (Nat.lt_of_not_le fun hle => hnil ?_))
    have hempty := hrun.eq_append
    rw [List.drop_eq_nil_of_le hle] at hempty
    exact (List.append_eq_nil_iff.mp hempty.symm).1
  have hstarts : (SyntaxError.ofTreeError source (.oversized offset digits)).StartsAt
      (source.toList.take offset) (source.toList.drop offset) := by
    refine ⟨(List.take_append_drop offset _).symm, hoffset.symm, fun char hchar => ?_⟩
    obtain ⟨head, others, rfl⟩ := List.exists_cons_of_ne_nil hnil
    rw [hrun.eq_append] at hchar
    obtain rfl : head = char := Option.some.inj hchar
    exact isBlank_eq_false_of_isAlphanum
      (isAlphanum_of_isDigit (hrun.accepts_run head List.mem_cons_self))
  refine ⟨_, _, _, _, digits, hstarts.pointsAt ?_ ?_⟩
  · exact ⟨String.toList_ofList.symm, hnil, hword, rest, hrun⟩
  · rw [hoffset]
    rfl

/-- An error of a text that matches but has no tree points at a literal. -/
theorem exists_pointsAt_of_build {node : Peg.Node Rule} {reason : TreeError}
    (hmatch : language.match? entry.rule source.toList = .ok node)
    (hbuild : entry.build node.children = .error reason) :
    ∃ before after left right covered,
      (SyntaxError.ofTreeError source reason).PointsAt source before after left right covered := by
  have hsettles := entry.settles_of_shaped (shaped_of_match hmatch)
  rw [hbuild] at hsettles
  cases reason with
  | oversized offset digits => exact exists_pointsAt_of_literal hsettles.1 hsettles.2
  | misshapen rule => exact hsettles.elim

/-- All coordinates of an error tell of one and the same place, which is not at a blank. -/
theorem pointsAt_of_check (entry : Entry) (source : String) (error : SyntaxError)
    (hcheck : entry.check source = .error error) :
    ∃ before after left right covered,
      error.PointsAt source before after left right covered := by
  obtain ⟨trace, hmatch, rfl⟩ | ⟨node, reason, hmatch, hbuild, rfl⟩ :=
    check_eq_error_iff.mp hcheck
  · exact exists_pointsAt_of_match hmatch
  · exact exists_pointsAt_of_build hmatch hbuild

/-- A literal that is no word behind a line feed, a tab and a character of two bytes. -/
theorem pointsAt_of_check_second_line :
    ∃ error, Entry.program.check "x = 1\np \"é\"\t- 99999999999999999999" = .error error ∧
      ∃ before after left right covered, error.PointsAt "x = 1\np \"é\"\t- 99999999999999999999"
        before after left right covered := by
  obtain ⟨error, hcheck⟩ := exists_eq_error_of_isNone (by decide +kernel :
    (Entry.program.check "x = 1\np \"é\"\t- 99999999999999999999").toOption.isNone)
  exact ⟨error, hcheck, pointsAt_of_check .program _ error hcheck⟩

/-- A fragment may hold what looks like a mark, so the first one that is shown need not be the one
below the place. -/
theorem fragment_before_mark :
    ∃ error, Entry.program.check "p \"^\" +" = .error error ∧ '\r' ∉ "p \"^\" +".toList ∧
      error.render.toList.takeWhile (· ≠ '^') = " --> 1:8\n  |\n1 | p \"".toList ∧
      (Text.lineCol (error.render.toList.takeWhile (· ≠ '^'))).2 ≠
        "1 | ".length + error.lineCol.2 := by
  have hshown : (match Entry.program.check "p \"^\" +" with
      | .error error =>
          error.render.toList.takeWhile (· ≠ '^') == " --> 1:8\n  |\n1 | p \"".toList &&
            error.lineCol.2 == 8
      | .ok _ => false) = true := by
    decide +kernel
  cases hcheck : Entry.program.check "p \"^\" +" with
  | ok tree => simp [hcheck] at hshown
  | error error =>
      rw [hcheck, Bool.and_eq_true, beq_iff_eq, beq_iff_eq] at hshown
      refine ⟨error, rfl, by decide, hshown.1, ?_⟩
      rw [hshown.1, hshown.2]
      decide

end Entry

end PlZero
