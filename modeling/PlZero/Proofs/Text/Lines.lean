import Mathlib.Data.List.Basic
import Mathlib.Data.List.Induction
import PlZero.Text.Lines
import PlZero.Proofs.Text.Position

/-! # Where lines end

A text that is cut where a line ends has the lines of its two parts. So the line that holds a
place is known from what stands in front of it: as many lines as there are up to the last line
end, and then the characters from there on.
-/

namespace PlZero.Text

/-- The characters that end a line, apart from a CR with a LF behind it. -/
def lineEnds : List Char := ['\n', '\x0b', '\x0c', '\r', '\u0085', '\u2028', '\u2029']

/-- A line ends between two parts of a text, and not within a CR LF. -/
def EndsBetween (before after : List Char) : Prop :=
  ∃ char ∈ before.getLast?, char ∈ lineEnds ∧ ¬ (char = '\r' ∧ after.head? = some '\n')

/-- A line starts between two parts of a text. -/
def StartsBetween (before after : List Char) : Prop := before = [] ∨ EndsBetween before after

/-- No line ends inside or right behind a run of characters with the given ones behind it. -/
def Unbroken (run after : List Char) : Prop :=
  ∀ first last, run = first ++ last → ¬ EndsBetween first (last ++ after)

/-- Some characters of a text, from `start` up to `stop`, are all in one line. -/
def WithinLine (text : List Char) (start stop : Nat) : Prop :=
  ∀ before after, text = before ++ after → start < before.length → before.length < stop →
    ¬ EndsBetween before after

theorem endsLine_iff {char : Char} {rest : List Char} :
    endsLine char rest ↔ char ∈ lineEnds ∧ ¬ (char = '\r' ∧ rest.head? = some '\n') := by
  simp [endsLine, isLineEnd, lineEnds, or_assoc, -not_and, not_and_or]

theorem endsBetween_concat_iff {first : List Char} {char : Char} {rest : List Char} :
    EndsBetween (first ++ [char]) rest ↔ endsLine char rest := by
  simp [EndsBetween, endsLine_iff]

/-- Whether a line ends behind some characters does not depend on what precedes them. -/
theorem endsBetween_append_iff {before first after : List Char} (hfirst : first ≠ []) :
    EndsBetween (before ++ first) after ↔ EndsBetween first after := by
  obtain ⟨start, char, rfl⟩ := List.eq_nil_or_concat' first |>.resolve_left hfirst
  rw [← List.append_assoc, endsBetween_concat_iff, endsBetween_concat_iff]

theorem EndsBetween.ne_nil {before after : List Char} (hends : EndsBetween before after) :
    before ≠ [] := by
  rintro rfl
  obtain ⟨char, hchar, -⟩ := hends
  cases hchar

/-! ## Lines of a text in two parts -/

theorem splitLines_singleton (char : Char) : splitLines [char] = [[char]] := by
  rw [splitLines]
  split <;> rfl

theorem exists_splitLines_eq_cons {text : List Char} (htext : text ≠ []) :
    ∃ line lines, splitLines text = line :: lines := by
  refine List.exists_cons_of_ne_nil fun hnil => htext ?_
  rw [← flatten_splitLines text, hnil]
  rfl

theorem ne_nil_of_mem_splitLines {text line : List Char} (hline : line ∈ splitLines text) :
    line ≠ [] := by
  induction text generalizing line with
  | nil => cases hline
  | cons char rest ih =>
      rw [splitLines] at hline
      split at hline
      · rcases List.mem_cons.mp hline with rfl | hline
        · exact List.cons_ne_nil _ _
        · exact ih hline
      · split at hline
        next =>
          rw [List.mem_singleton.mp hline]
          exact List.cons_ne_nil _ _
        next first lines hlines =>
          rcases List.mem_cons.mp hline with rfl | hline
          · exact List.cons_ne_nil _ _
          · exact ih (hlines ▸ List.mem_cons_of_mem _ hline)

/-- A text has the lines of its two parts if a line ends between them. -/
theorem splitLines_append {first next : List Char} (hends : EndsBetween first next) :
    splitLines (first ++ next) = splitLines first ++ splitLines next := by
  induction first with
  | nil => exact absurd rfl hends.ne_nil
  | cons char rest ih =>
      cases rest with
      | nil =>
          have hchar : endsLine char next := @endsBetween_concat_iff [] char next |>.mp hends
          rw [splitLines_singleton, List.singleton_append, splitLines, if_pos hchar]
          rfl
      | cons second rest =>
          have hnil : second :: rest ≠ [] := List.cons_ne_nil _ _
          have hrest := ih (@endsBetween_append_iff [char] _ next hnil |>.mp hends)
          have hsame : endsLine char (second :: rest ++ next) = endsLine char (second :: rest) :=
            rfl
          obtain ⟨line, lines, hlines⟩ := exists_splitLines_eq_cons hnil
          rw [List.cons_append, splitLines, splitLines, hsame, hrest, hlines]
          split <;> rfl

/-- A run that no line ends in is the start of the first line. -/
theorem Unbroken.splitLines_append {run after line : List Char} {lines : List (List Char)}
    (hrun : Unbroken run after) (hafter : splitLines after = line :: lines) :
    splitLines (run ++ after) = (run ++ line) :: lines := by
  induction run with
  | nil => exact hafter
  | cons char run ih =>
      have hchar : ¬ endsLine char (run ++ after) := fun hends =>
        hrun [char] run rfl (@endsBetween_concat_iff [] char _ |>.mpr hends)
      have hrest : Unbroken run after := by
        intro first last hsplit hends
        refine hrun (char :: first) last (congrArg (char :: ·) hsplit) ?_
        exact (@endsBetween_append_iff [char] first _ hends.ne_nil).mpr hends
      rw [List.cons_append, splitLines, if_neg hchar, ih hrest]
      rfl

theorem unbroken_nil (after : List Char) : Unbroken [] after := by
  intro first last hsplit hends
  exact hends.ne_nil (List.append_eq_nil_iff.mp hsplit.symm).1

/-- No line ends in a run without the characters that end lines. -/
theorem unbroken_of_not_mem {run : List Char} (hrun : ∀ char ∈ run, char ∉ lineEnds)
    (after : List Char) : Unbroken run after := by
  rintro first last rfl ⟨char, hchar, hmem, -⟩
  exact hrun char (List.mem_append_left _ (List.mem_of_getLast? hchar)) hmem

theorem unbroken_singleton {char : Char} {after : List Char} (hchar : ¬ endsLine char after) :
    Unbroken [char] after := by
  intro first last hsplit hends
  obtain ⟨rfl, -⟩ | ⟨rfl, rfl⟩ := List.singleton_eq_append_iff.mp hsplit
  · exact hends.ne_nil rfl
  · exact hchar (@endsBetween_concat_iff [] char after |>.mp hends)

theorem Unbroken.append {left run after : List Char} (hleft : Unbroken left (run ++ after))
    (hrun : Unbroken run after) : Unbroken (left ++ run) after := by
  intro first last hsplit hends
  obtain ⟨middle, rfl, rfl⟩ | ⟨middle, rfl, rfl⟩ := List.append_eq_append_iff.mp hsplit
  · by_cases hmiddle : middle = []
    · subst hmiddle
      rw [List.append_nil] at hends
      exact hleft left [] (List.append_nil left).symm hends
    · exact hrun middle last rfl ((endsBetween_append_iff hmiddle).mp hends)
  · rw [List.append_assoc] at hends
    exact hleft first middle rfl hends

/-- What stands behind the last line end before a place. -/
theorem exists_startsBetween (before after : List Char) :
    ∃ earlier left, before = earlier ++ left ∧ StartsBetween earlier (left ++ after) ∧
      Unbroken left after := by
  induction before using List.reverseRecOn generalizing after with
  | nil => exact ⟨[], [], rfl, .inl rfl, unbroken_nil after⟩
  | append_singleton before char ih =>
      by_cases hends : endsLine char after
      · exact ⟨before ++ [char], [], (List.append_nil _).symm,
          .inr (endsBetween_concat_iff.mpr hends), unbroken_nil after⟩
      · obtain ⟨earlier, left, rfl, hstarts, hleft⟩ := ih (char :: after)
        refine ⟨earlier, left ++ [char], List.append_assoc _ _ _, ?_,
          hleft.append (unbroken_singleton hends)⟩
        rwa [List.append_assoc]

/-! ## The line of a place -/

theorem placeLines_append (offset : Nat) (lines more : List (List Char)) :
    placeLines offset (lines ++ more) =
      placeLines offset lines ++ placeLines (offset + lines.flatten.length) more := by
  induction lines generalizing offset with
  | nil => rfl
  | cons line lines ih =>
      rw [List.cons_append, placeLines, placeLines, ih, List.flatten_cons, List.length_append,
        Nat.add_assoc, List.cons_append]

theorem length_placeLines (offset : Nat) (lines : List (List Char)) :
    (placeLines offset lines).length = lines.length := by
  induction lines generalizing offset with
  | nil => rfl
  | cons line lines ih => rw [placeLines, List.length_cons, List.length_cons, ih]

/-- Lines lie one behind the other. -/
theorem offset_of_mem_placeLines {offset : Nat} {lines : List (List Char)} {line : Line}
    (hline : line ∈ placeLines offset lines) :
    offset ≤ line.offset ∧ line.offset + line.chars.length ≤ offset + lines.flatten.length := by
  induction lines generalizing offset with
  | nil => cases hline
  | cons first lines ih =>
      rw [placeLines, List.mem_cons] at hline
      rw [List.flatten_cons, List.length_append]
      rcases hline with rfl | hline
      · simp only
        omega
      · have hoffset := ih hline
        omega

/-- The lines of a text around one that starts at some place and goes on over a run that no line
ends in. -/
theorem exists_linesOf_eq {earlier run after : List Char}
    (hstarts : StartsBetween earlier (run ++ after)) (hrun : Unbroken run after)
    (hafter : after ≠ []) :
    ∃ more lines, more ≠ [] ∧
      linesOf (earlier ++ (run ++ after)) = placeLines 0 (splitLines earlier) ++
        ⟨earlier.length, run ++ more⟩ ::
          placeLines (earlier.length + (run ++ more).length) lines := by
  obtain ⟨more, lines, hmore⟩ := exists_splitLines_eq_cons hafter
  have hlines : splitLines (earlier ++ (run ++ after)) =
      splitLines earlier ++ (run ++ more) :: lines := by
    rcases hstarts with rfl | hends
    · exact hrun.splitLines_append hmore
    · rw [Text.splitLines_append hends, hrun.splitLines_append hmore]
  refine ⟨more, lines, ne_nil_of_mem_splitLines (hmore ▸ List.mem_cons_self), ?_⟩
  rw [linesOf, hlines, placeLines_append, flatten_splitLines, Nat.zero_add, placeLines]

/-- As many lines as there are in front of a line have lower numbers, and they end where it
starts. -/
theorem lineIndex_eq {earlier run after : List Char}
    (hstarts : StartsBetween earlier (run ++ after)) (hrun : Unbroken run after)
    (hafter : after ≠ []) {place : Nat} (hle : earlier.length ≤ place)
    (hge : place ≤ earlier.length + run.length) :
    lineIndex (linesOf (earlier ++ (run ++ after))) place = (splitLines earlier).length := by
  obtain ⟨more, lines, hmore, hlines⟩ := exists_linesOf_eq hstarts hrun hafter
  have hearlier : ∀ line ∈ placeLines 0 (splitLines earlier), decide (line.offset ≤ place) := by
    intro line hline
    have hoffset := (offset_of_mem_placeLines hline).2
    rw [flatten_splitLines] at hoffset
    exact decide_eq_true (by omega)
  have hlater : (placeLines (earlier.length + (run ++ more).length) lines).takeWhile
      (fun line => decide (line.offset ≤ place)) = [] := by
    have hlength := List.length_pos_iff.mpr hmore
    cases lines with
    | nil => rfl
    | cons line lines =>
        rw [placeLines, List.takeWhile_cons_of_neg]
        simp only [List.length_append, decide_eq_true_eq]
        omega
  rw [lineIndex, hlines, List.takeWhile_append_of_pos hearlier,
    List.takeWhile_cons_of_pos (by simpa using hle), hlater, List.length_append,
    length_placeLines, List.length_singleton, Nat.add_sub_cancel]

/-- The line with the number of a place starts behind the last line end before the place. -/
theorem offset_getD_linesOf {earlier run after : List Char}
    (hstarts : StartsBetween earlier (run ++ after)) (hrun : Unbroken run after)
    (hafter : after ≠ []) (default : Line) :
    ((linesOf (earlier ++ (run ++ after))).getD (splitLines earlier).length default).offset =
      earlier.length := by
  obtain ⟨more, lines, -, hlines⟩ := exists_linesOf_eq hstarts hrun hafter
  rw [hlines, List.getD_eq_getElem?_getD, ← length_placeLines 0 (splitLines earlier),
    List.getElem?_append_right (Nat.le_refl _), Nat.sub_self]
  rfl

/-- Places with no line end between them have the same line number. -/
theorem Unbroken.lineIndex_eq {run after : List Char} (hrun : Unbroken run after)
    (hafter : after ≠ []) (before : List Char) :
    lineIndex (linesOf (before ++ (run ++ after))) (before.length + run.length) =
      lineIndex (linesOf (before ++ (run ++ after))) before.length := by
  obtain ⟨earlier, left, rfl, hstarts, hleft⟩ := exists_startsBetween before (run ++ after)
  rw [← List.append_assoc left] at hstarts
  have hindex {place : Nat} (hle : earlier.length ≤ place)
      (hge : place ≤ earlier.length + left.length + run.length) :=
    Text.lineIndex_eq hstarts (hleft.append hrun) hafter hle
      (by rwa [List.length_append, ← Nat.add_assoc])
  rw [List.append_assoc, ← List.append_assoc left, List.length_append, hindex (by omega) (by omega),
    hindex (by omega) (by omega)]

theorem WithinLine.mono {text : List Char} {start stop more : Nat}
    (hwithin : WithinLine text start more) (hle : stop ≤ more) : WithinLine text start stop :=
  fun before after htext hstart hstop => hwithin before after htext hstart (by omega)

/-- A run that no line ends in, and the character behind it, are in one line. -/
theorem Unbroken.withinLine {run after : List Char} (hrun : Unbroken run after)
    (before : List Char) :
    WithinLine (before ++ (run ++ after)) before.length (before.length + run.length + 1) := by
  intro first last htext hstart hstop
  obtain ⟨middle, rfl, hmiddle⟩ | ⟨middle, rfl, -⟩ := List.append_eq_append_iff.mp htext
  · have hnil : middle ≠ [] := by
      rintro rfl
      simp at hstart
    rw [endsBetween_append_iff hnil]
    obtain ⟨rest, rfl, rfl⟩ | ⟨rest, rfl, rfl⟩ := List.append_eq_append_iff.mp hmiddle
    · -- The run is over in front of the last character.
      rw [List.length_append, List.length_append] at hstop
      obtain rfl : rest = [] := List.length_eq_zero_iff.mp (by omega)
      rw [List.append_nil]
      exact hrun run [] (List.append_nil run).symm
    · exact hrun middle rest rfl
  · rw [List.length_append] at hstart
    omega

/-- Some characters in one line are a run that no line ends in, and one character behind it. -/
theorem WithinLine.exists_eq_append {text : List Char} {start stop : Nat}
    (hwithin : WithinLine text start stop) (hlt : start < stop) (hstop : stop ≤ text.length) :
    ∃ before run after, text = before ++ (run ++ after) ∧ Unbroken run after ∧ after ≠ [] ∧
      before.length = start ∧ before.length + run.length + 1 = stop := by
  obtain ⟨length, rfl⟩ : ∃ length, stop = start + length + 1 :=
    ⟨stop - start - 1, by omega⟩
  have hbefore : (text.take start).length = start := List.length_take_of_le (by omega)
  have hrun : ((text.drop start).take length).length = length :=
    List.length_take_of_le (by rw [List.length_drop]; omega)
  have hafter : (text.drop start).drop length ≠ [] := by
    rw [List.drop_drop, Ne, List.drop_eq_nil_iff]
    omega
  have hcut : text = text.take start ++ ((text.drop start).take length ++
      (text.drop start).drop length) := by
    rw [List.take_append_drop, List.take_append_drop]
  refine ⟨_, _, _, hcut, ?_, hafter, hbefore, by rw [hbefore, hrun]⟩
  intro first last hsplit hends
  have hlength := congrArg List.length hsplit
  have hpos := List.length_pos_iff.mpr hends.ne_nil
  rw [hrun, List.length_append] at hlength
  rw [hsplit, List.append_assoc, ← List.append_assoc] at hcut
  refine hwithin _ _ hcut ?_ ?_ ((endsBetween_append_iff hends.ne_nil).mpr hends)
  all_goals
    rw [List.length_append, hbefore]
    omega

theorem WithinLine.lineIndex_eq {text : List Char} {start stop : Nat}
    (hwithin : WithinLine text start stop) (hlt : start < stop) (hstop : stop ≤ text.length) :
    lineIndex (linesOf text) (stop - 1) = lineIndex (linesOf text) start := by
  obtain ⟨before, run, after, rfl, hrun, hafter, rfl, rfl⟩ := hwithin.exists_eq_append hlt hstop
  exact hrun.lineIndex_eq hafter before

/-- The line with the number of a place holds all characters that are in one line with it. -/
theorem WithinLine.exists_line {text : List Char} {start stop : Nat}
    (hwithin : WithinLine text start stop) (hlt : start < stop) (hstop : stop ≤ text.length) :
    ∃ line, (linesOf text)[lineIndex (linesOf text) start]? = some line ∧ line.offset ≤ start ∧
      stop ≤ line.offset + line.chars.length := by
  obtain ⟨before, run, after, rfl, hrun, hafter, rfl, rfl⟩ := hwithin.exists_eq_append hlt hstop
  obtain ⟨earlier, left, rfl, hstarts, hleft⟩ := exists_startsBetween before (run ++ after)
  have hwhole : Unbroken (left ++ run) after := hleft.append hrun
  rw [← List.append_assoc left] at hstarts
  obtain ⟨more, lines, hmore, hlines⟩ := exists_linesOf_eq hstarts hwhole hafter
  have hindex := @Text.lineIndex_eq _ _ _ hstarts hwhole hafter (earlier ++ left).length
    (by simp) (by simp)
  rw [List.append_assoc, ← List.append_assoc left, hindex, hlines]
  refine ⟨⟨earlier.length, left ++ run ++ more⟩, ?_, by simp, ?_⟩
  · rw [← length_placeLines 0 (splitLines earlier), List.getElem?_append_right (Nat.le_refl _),
      Nat.sub_self]
    rfl
  · have hlength := List.length_pos_iff.mpr hmore
    simp only [List.length_append]
    omega

/-! ## Texts whose lines end with line feeds -/

/-- Every line end is a LF or a CR LF. -/
def FeedsOnly (text : List Char) : Prop :=
  ∀ before char after, text = before ++ char :: after → char ∈ lineEnds →
    char = '\n' ∨ char = '\r' ∧ after.head? = some '\n'

theorem FeedsOnly.endsLine_iff {char : Char} {rest : List Char}
    (hfeeds : FeedsOnly (char :: rest)) : endsLine char rest ↔ char = '\n' := by
  rw [Text.endsLine_iff]
  constructor
  · rintro ⟨hmem, hcrlf⟩
    exact (hfeeds [] char rest rfl hmem).resolve_right hcrlf
  · rintro rfl
    exact ⟨by decide, by simp⟩

theorem FeedsOnly.tail {char : Char} {rest : List Char} (hfeeds : FeedsOnly (char :: rest)) :
    FeedsOnly rest := by
  rintro before other after rfl hmem
  exact hfeeds (char :: before) other after rfl hmem

theorem FeedsOnly.length_splitLines {text : List Char} (hfeeds : FeedsOnly text)
    (hlast : ∀ char ∈ text.getLast?, char = '\n') :
    (splitLines text).length = text.count '\n' := by
  induction text with
  | nil => rfl
  | cons char rest ih =>
      cases rest with
      | nil =>
          obtain rfl := hlast char rfl
          rfl
      | cons second rest =>
          have hrest := ih hfeeds.tail hlast
          obtain ⟨line, lines, hlines⟩ := exists_splitLines_eq_cons (List.cons_ne_nil second rest)
          rw [splitLines, List.count_cons, ← hrest, hlines]
          split
          next hends => simp [hfeeds.endsLine_iff.mp hends]
          next hends => simp [mt hfeeds.endsLine_iff.mpr hends]

theorem FeedsOnly.of_append {text more : List Char} (hfeeds : FeedsOnly (text ++ more))
    (hlast : ∀ char ∈ text.getLast?, char = '\n') : FeedsOnly text := by
  rintro before char after rfl hmem
  cases after with
  | nil => exact .inl (hlast char (by simp))
  | cons next after =>
      rw [List.append_assoc] at hfeeds
      exact hfeeds before char (next :: after ++ more) rfl hmem

theorem FeedsOnly.unbroken {before line : List Char} (hfeeds : FeedsOnly (before ++ line))
    (hline : '\n' ∉ line) (after : List Char) : Unbroken line after := by
  refine unbroken_of_not_mem (fun char hchar hmem => hline ?_) after
  obtain ⟨start, rest, rfl⟩ := List.append_of_mem hchar
  rcases hfeeds (before ++ start) char rest (List.append_assoc _ _ _).symm hmem with
    rfl | ⟨-, hhead⟩
  · exact hchar
  · exact List.mem_append_right _ (List.mem_cons_of_mem _ (List.mem_of_head? hhead))

/-- The last line of such a text, as it is told by line feeds, is what stands behind its last line
end. -/
theorem FeedsOnly.exists_startsBetween {before line : List Char} (hfeeds : FeedsOnly before)
    (hlast : IsLastLine before line) (after : List Char) :
    ∃ earlier, before = earlier ++ line ∧ StartsBetween earlier (line ++ after) ∧
      Unbroken line after ∧ (splitLines earlier).length = before.count '\n' := by
  obtain ⟨hline, earlier, rfl, hfeed⟩ := hlast
  refine ⟨earlier, rfl, ?_, hfeeds.unbroken hline after, ?_⟩
  · rcases hchar : earlier.getLast? with _ | char
    · exact .inl (List.getLast?_eq_none_iff.mp hchar)
    · obtain rfl := hfeed char hchar
      exact .inr ⟨_, hchar, by decide, by simp⟩
  · rw [List.count_append, List.count_eq_zero_of_not_mem hline]
    exact (hfeeds.of_append hfeed).length_splitLines hfeed

end PlZero.Text
