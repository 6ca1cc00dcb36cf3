import Mathlib.Algebra.GroupWithZero.Nat
import Mathlib.Data.List.Basic
import Mathlib.Data.List.Induction
import PlZero.Report

/-! # What a report draws

A label within one line is drawn in two rows: its characters are red in the row of the line, and
marks stand below them, and below nothing else. The margins of both rows are equally long, and
below every character there are as many columns as it is shown with, so the marks are in place.
-/

namespace PlZero.Report

open Text (Line)

/-- The character in some column of a line, as it is shown. -/
def cell (line : Line) (column : Nat) : List String :=
  line.shown[column]?.elim [] (charText column)

/-- How many columns of a terminal a text takes. -/
def textWidth (text : String) : Nat := (text.toList.map Text.width).sum

/-- How many columns of a terminal belong to a column of a line: those that its character is shown
with, and one behind the end. -/
def cellWidth (line : Line) (column : Nat) : Nat :=
  if column < line.shown.length then ((cell line column).map textWidth).sum else 1

/-- The characters in some columns of a line, as they are shown. -/
def cells (line : Line) (start count : Nat) : List String :=
  (List.range' start count).flatMap (cell line)

/-- How many columns of a terminal belong to some columns of a line. -/
def span (line : Line) (start count : Nat) : Nat :=
  ((List.range' start count).map (cellWidth line)).sum

/-- The row of a line in which some columns are red. -/
def lineRow (line : Line) (start count : Nat) : PieceLine :=
  (cells line 0 start).map (.grey 249) ++ (cells line start count).map .red ++
    (cells line (start + count) (line.shown.length - (start + count))).map (.grey 249)

/-- A row with marks below some columns of a line, and with two more columns behind them. -/
def MarkedBelow (line : Line) (start count : Nat) (row : PieceLine) : Prop :=
  ∃ marks, row = List.replicate (span line 0 start) (.plain " ") ++ marks ++
      List.replicate (span line (start + count) 2) (.plain " ") ∧
    marks.length = span line start count ∧ ∀ mark ∈ marks, mark ∈ [.red "┬", .red "─"]

/-- How many characters a row has. -/
def rowLength (row : PieceLine) : Nat := (row.map (·.text.length)).sum

/-- The rows of a label that is drawn below its line: the line, with the characters of the label
in red, marks below them, and the message. -/
def DrawnBelow (line : Line) (label : Label) (message : String) (rows : List PieceLine) : Prop :=
  ∃ number gap marks pointer,
    rows = [number ++ lineRow line (label.start - line.offset) (label.stop - label.start),
      gap ++ marks, gap ++ pointer ++ [.plain (" " ++ message)]] ∧
    rowLength number = rowLength gap ∧
    MarkedBelow line (label.start - line.offset) (label.stop - label.start) marks

/-! ## The row of the line -/

section Columns

variable {line : Line}

/-- A list with places is a range of places with what stands there. -/
theorem flatMap_zipIdx {Item Part : Type} (draw : Item × Nat → List Part) (items : List Item) :
    items.zipIdx.flatMap draw = (List.range items.length).flatMap fun place =>
      items[place]?.elim [] fun item => draw (item, place) := by
  induction items using List.reverseRecOn with
  | nil => rfl
  | append_singleton items item ih =>
      rw [List.zipIdx_append, List.flatMap_append, ih, List.length_append, List.length_singleton,
        List.range_succ, List.flatMap_append]
      congr 1
      · refine List.flatMap_congr fun place hplace => ?_
        rw [List.getElem?_append_left (List.mem_range.mp hplace)]
      · simp

/-- Columns in three parts. -/
theorem range_eq_append (start count more : Nat) :
    List.range (start + count + more) =
      List.range' 0 start ++ List.range' start count ++ List.range' (start + count) more := by
  have hfront := @List.range'_append_1 0 start count
  have hwhole := @List.range'_append_1 0 (start + count) more
  rw [Nat.zero_add] at hfront hwhole
  rw [hfront, hwhole, List.range_eq_range']

/-- What is drawn in the columns of a line, and nothing behind them, is drawn in three parts. -/
theorem flatMap_range_eq {length : Nat} {draw : Nat → PieceLine}
    (hbehind : ∀ column, length ≤ column → draw column = []) (start count : Nat) :
    (List.range length).flatMap draw =
      (List.range' 0 start).flatMap draw ++ (List.range' start count).flatMap draw ++
        (List.range' (start + count) (length - (start + count))).flatMap draw := by
  have hnone : (List.range' length (start + count - length)).flatMap draw = [] :=
    List.flatMap_eq_nil_iff.mpr fun column hcolumn =>
      hbehind column (List.mem_range'_1.mp hcolumn).1
  have hlength : length + (start + count - length) =
      start + count + (length - (start + count)) := by
    omega
  have hwhole := @List.range'_append_1 0 length (start + count - length)
  rw [Nat.zero_add, hlength, ← List.range_eq_range', ← List.range_eq_range'] at hwhole
  rw [← List.flatMap_append, ← List.flatMap_append, ← range_eq_append, ← hwhole,
    List.flatMap_append, hnone, List.append_nil]

theorem cell_of_le {column : Nat} (hle : line.shown.length ≤ column) : cell line column = [] := by
  rw [cell, List.getElem?_eq_none hle, Option.elim_none]

theorem lineText_eq (label : Label) :
    lineText label line = (List.range line.shown.length).flatMap fun column =>
      (cell line column).map
        (if label.start ≤ line.offset + column ∧ line.offset + column < label.stop then Piece.red
          else Piece.grey 249) := by
  rw [lineText, flatMap_zipIdx]
  refine List.flatMap_congr fun column _ => ?_
  rw [cell]
  cases line.shown[column]? with
  | none => rfl
  | some char => simp

/-- Columns that are all drawn in one colour. -/
theorem flatMap_eq_map_cells {start count : Nat} {paint : Nat → String → Piece}
    {colour : String → Piece}
    (hpaint : ∀ column, start ≤ column → column < start + count → paint column = colour) :
    ((List.range' start count).flatMap fun column => (cell line column).map (paint column)) =
      (cells line start count).map colour := by
  rw [cells, List.map_flatMap]
  refine List.flatMap_congr fun column hcolumn => ?_
  obtain ⟨hle, hlt⟩ := List.mem_range'_1.mp hcolumn
  rw [hpaint column hle hlt]

/-- The characters of a label are red, and no other ones. -/
theorem lineText_eq_lineRow {label : Label} (hstart : line.offset ≤ label.start)
    (hlt : label.start < label.stop) :
    lineText label line =
      lineRow line (label.start - line.offset) (label.stop - label.start) := by
  rw [lineText_eq, lineRow,
    flatMap_range_eq (fun column hle => by rw [cell_of_le hle, List.map_nil])
      (label.start - line.offset) (label.stop - label.start)]
  congr 1
  · congr 1
    · refine flatMap_eq_map_cells fun column _ hcolumn => if_neg ?_
      omega
    · refine flatMap_eq_map_cells fun column hle hcolumn => if_pos ?_
      omega
  · refine flatMap_eq_map_cells fun column hle _ => if_neg ?_
    omega

end Columns

/-! ## The row of marks -/

section Marks

variable {line : Line}

theorem sum_textWidth_charText (column : Nat) (char : Char) :
    ((charText column char).map textWidth).sum = charWidth column char := by
  have hspace : textWidth " " = 1 := by decide +kernel
  rw [charText, charWidth]
  split
  · rw [List.map_replicate, List.sum_replicate_nat, hspace, Nat.mul_one]
  · split
    · simp [hspace]
    · simp [textWidth]

/-- Every column gets as many marks as its character is shown with. -/
theorem columnWidth_eq (line : Line) (column : Nat) :
    columnWidth line column = cellWidth line column := by
  rw [columnWidth, cellWidth, cell]
  split
  next char hchar =>
    obtain ⟨hlt, -⟩ := List.getElem?_eq_some_iff.mp hchar
    rw [if_pos hlt, hchar, Option.elim_some, sum_textWidth_charText]
  next hnone => rw [if_neg (Nat.not_lt.mpr (List.getElem?_eq_none_iff.mp hnone))]

/-- A row of marks below some columns of a line. -/
def marksOf (line : Line) (marks : Nat → Piece × Piece) (start count : Nat) : PieceLine :=
  (List.range' start count).flatMap fun column =>
    match columnWidth line column with
    | 0 => []
    | more + 1 => (marks column).1 :: List.replicate more (marks column).2

theorem length_marksOf (marks : Nat → Piece × Piece) (start count : Nat) :
    (marksOf line marks start count).length = span line start count := by
  rw [marksOf, List.length_flatMap, span]
  congr 2
  funext column
  rw [← columnWidth_eq]
  split
  next hwidth => rw [hwidth, List.length_nil]
  next more hwidth => rw [hwidth, List.length_cons, List.length_replicate]

theorem mem_marksOf {marks : Nat → Piece × Piece} {start count : Nat} {mark : Piece}
    (hmark : mark ∈ marksOf line marks start count) :
    ∃ column, start ≤ column ∧ column < start + count ∧
      (mark = (marks column).1 ∨ mark = (marks column).2) := by
  obtain ⟨column, hcolumn, hmark⟩ := List.mem_flatMap.mp hmark
  obtain ⟨hle, hlt⟩ := List.mem_range'_1.mp hcolumn
  refine ⟨column, hle, hlt, ?_⟩
  split at hmark
  next => cases hmark
  next more _ => exact (List.mem_cons.mp hmark).imp_right List.eq_of_mem_replicate

theorem marksOf_eq_replicate {marks : Nat → Piece × Piece} {start count : Nat}
    (hblank : ∀ column, start ≤ column → column < start + count → marks column = blankMarks) :
    marksOf line marks start count = List.replicate (span line start count) (.plain " ") := by
  refine List.eq_replicate_iff.mpr ⟨length_marksOf marks start count, fun mark hmark => ?_⟩
  obtain ⟨column, hle, hlt, hmark⟩ := mem_marksOf hmark
  rw [hblank column hle hlt] at hmark
  exact hmark.elim id id

/-- Marks below some columns, and below no other ones, make a row of marks below these. -/
theorem markedBelow_markRow {marks : Nat → Piece × Piece} {start count : Nat}
    (hmarks : ∀ column, start ≤ column → column < start + count →
      (marks column).1 ∈ [Piece.red "┬", .red "─"] ∧ (marks column).2 ∈ [Piece.red "┬", .red "─"])
    (hblank : ∀ column, column < start ∨ start + count ≤ column → marks column = blankMarks) :
    MarkedBelow line start count (markRow line (start + count + 2) marks) := by
  have hrow : markRow line (start + count + 2) marks = marksOf line marks 0 start ++
      marksOf line marks start count ++ marksOf line marks (start + count) 2 := by
    rw [markRow, range_eq_append, List.flatMap_append, List.flatMap_append]
    rfl
  rw [hrow, marksOf_eq_replicate fun column _ hlt => hblank column (.inl (by omega)),
    marksOf_eq_replicate fun column hle _ => hblank column (.inr hle)]
  refine ⟨_, rfl, length_marksOf marks start count, fun mark hmark => ?_⟩
  obtain ⟨column, hle, hlt, rfl | rfl⟩ := mem_marksOf hmark
  · exact (hmarks column hle hlt).1
  · exact (hmarks column hle hlt).2

end Marks

/-! ## The rows together -/

/-- Where a label touches one line, the margins of its rows are equally long. -/
theorem rowLength_numberMargin (index : Nat) :
    rowLength (numberMargin (toString (index + 1)).length index) =
      rowLength (gapMargin (toString (index + 1)).length "│") := by
  have hspaces : ∀ count, (copies count " ").length = count := by
    intro count
    induction count with
    | zero => rfl
    | succ count ih =>
        rw [copies, List.replicate_succ, String.join_cons, String.length_append]
        rw [copies] at ih
        rw [ih, Nat.add_comm]
        rfl
  simp only [numberMargin, gapMargin, rowLength, Piece.plain, Piece.grey, List.map_cons,
    List.map_nil, List.sum_cons, List.sum_nil, String.length_append, hspaces]
  rw [Nat.sub_self, Nat.zero_add]
  rfl

/-- A label within one line is drawn below it. -/
theorem Placed.drawnBelow_withinLine {placed : Placed}
    (hindex : placed.firstIndex = placed.lastIndex)
    (hstart : placed.first.offset ≤ placed.label.start)
    (hlt : placed.label.start < placed.label.stop) (message : String) :
    DrawnBelow placed.first placed.label message (placed.withinLine message) := by
  have hstop : placed.label.stop - placed.first.offset =
      placed.label.start - placed.first.offset + (placed.label.stop - placed.label.start) := by
    omega
  have hmargins : rowLength (numberMargin placed.digits placed.firstIndex) =
      rowLength (gapMargin placed.digits "│") := by
    rw [digits, ← hindex]
    exact rowLength_numberMargin placed.firstIndex
  rw [withinLine, lineText_eq_lineRow hstart hlt, hstop]
  refine ⟨_, _, _, _, rfl, hmargins, markedBelow_markRow ?_ ?_⟩
  · intro column hle hcolumn
    split
    next => simp
    next =>
      rw [if_pos (Bool.and_eq_true_iff.mpr ⟨decide_eq_true hle, decide_eq_true hcolumn⟩)]
      simp
  · intro column hcolumn
    rw [if_neg (by omega), if_neg]
    simp only [Bool.and_eq_true, decide_eq_true_eq]
    omega

end PlZero.Report
