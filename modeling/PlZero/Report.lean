import PlZero.Diagnostic
import PlZero.Report.Paint
import PlZero.Text.Lines
import PlZero.Text.Width

/-! # Reports

A report shows a diagnostic together with the lines of the source it points at. Its label always
covers at least one character of the source: a range that is empty or lies outside is moved and
widened just enough. A diagnostic without a range, and any diagnostic of an empty source, is
reported on a single line.
-/

namespace PlZero

/-- The characters from `start` up to `stop`. -/
structure Label where
  start : Nat
  stop : Nat

/-- The label nearest to a range that covers a character of a source of `length` characters. -/
def Label.clamp (length start stop : Nat) : Label :=
  let start := min start (length - 1)
  ⟨start, max (min stop length) (start + 1)⟩

namespace Report

open Text (Line)

/-- Some copies of a text. -/
def copies (count : Nat) (text : String) : String := String.join (List.replicate count text)

/-- How many columns a character takes: a tab reaches the next multiple of four characters. -/
def charWidth (column : Nat) (char : Char) : Nat :=
  if char = '\t' then 4 - column % 4 else if Text.isSpace char then 1 else Text.width char

/-- How a character is shown: white space as spaces. -/
def charText (column : Nat) (char : Char) : List String :=
  if char = '\t' then List.replicate (4 - column % 4) " "
  else if Text.isSpace char then [" "]
  else [char.toString]

/-- The text of a line, with the characters under a label in red. -/
def lineText (label : Label) (line : Line) : PieceLine :=
  line.shown.zipIdx.flatMap fun (char, column) =>
    let offset := line.offset + column
    let inLabel := label.start ≤ offset && offset < label.stop
    (charText column char).map (if inLabel then Piece.red else Piece.grey 249)

/-- How many columns the character in some column of a line takes; one behind its end. -/
def columnWidth (line : Line) (column : Nat) : Nat :=
  match line.shown[column]? with
  | some char => charWidth column char
  | none => 1

/-- A row of marks below a line: for each column one mark, and another one for every further
column its character takes. -/
def markRow (line : Line) (length : Nat) (marks : Nat → Piece × Piece) : PieceLine :=
  (List.range length).flatMap fun column =>
    match columnWidth line column with
    | 0 => []
    | more + 1 => (marks column).1 :: List.replicate more (marks column).2

/-- Both marks of a column without a mark. -/
def blankMarks : Piece × Piece := (.plain " ", .plain " ")

/-- The start of a row that shows the line with a number from zero. -/
def numberMargin (digits index : Nat) : PieceLine :=
  let number := toString (index + 1)
  [.plain " ", .grey 246 (copies (digits - number.length) " " ++ number ++ " │"), .plain " "]

/-- The start of a row without a line of the source. -/
def gapMargin (digits : Nat) (rail : String) : PieceLine :=
  [.plain " ", .grey 240 (copies (digits + 1) " " ++ rail), .plain " "]

/-- A label among the lines of a source: the first and the last line it touches, with their
numbers from zero. -/
structure Placed where
  label : Label
  firstIndex : Nat
  first : Line
  lastIndex : Nat
  last : Line

namespace Placed

/-- Finds the lines a label touches. -/
def ofLabel (source : List Char) (label : Label) : Placed :=
  let lines := Text.linesOf source
  let firstIndex := Text.lineIndex lines label.start
  let lastIndex := Text.lineIndex lines (label.stop - 1)
  { label
    firstIndex
    first := lines.getD firstIndex ⟨0, []⟩
    lastIndex
    last := lines.getD lastIndex ⟨0, []⟩ }

/-- The line and the column, both from one, at which a label starts. -/
def lineCol (placed : Placed) : Nat × Nat :=
  (placed.firstIndex + 1, placed.label.start - placed.first.offset + 1)

/-- How many digits the numbers in the margin have room for. -/
def digits (placed : Placed) : Nat := (toString (placed.lastIndex + 1)).length

/-- The rows of a label within one line: the line, the label's extent, and its message. -/
def withinLine (placed : Placed) (message : String) : List PieceLine :=
  let label := placed.label
  let offset := placed.first.offset
  let start := label.start - offset
  let stop := label.stop - offset
  let middle := (label.start + label.stop) / 2 - offset
  let extent (column : Nat) : Piece × Piece :=
    if column = middle then (.red "┬", .red "─")
    else if start ≤ column && column < stop then (.red "─", .red "─")
    else blankMarks
  let pointer (column : Nat) : Piece × Piece :=
    if column = middle then (.red "╰", .red "─")
    else if middle < column then (.red "─", .red "─")
    else blankMarks
  let gap := gapMargin placed.digits "│"
  [ numberMargin placed.digits placed.firstIndex ++ lineText label placed.first,
    gap ++ markRow placed.first (stop + 2) extent,
    gap ++ markRow placed.first (stop + 2) pointer ++ [.plain (" " ++ message)] ]

/-- The rows of a label over several lines: the first and the last of them, a sign for lines in
between, and the message. -/
def acrossLines (placed : Placed) (message : String) : List PieceLine :=
  let length := placed.last.chars.length + 2
  let turn (corner : String) : PieceLine := [.red corner, .red "─", .red "▶", .red " "]
  let gap := gapMargin placed.digits "│"
  let between : List PieceLine :=
    if 1 < placed.lastIndex - placed.firstIndex then
      [gapMargin placed.digits "┆" ++ [.red "┆", .plain "   "]]
    else []
  [ numberMargin placed.digits placed.firstIndex ++ turn "╭" ++
      lineText placed.label placed.first ] ++
    between ++
    [ numberMargin placed.digits placed.lastIndex ++ turn "├" ++
        lineText placed.label placed.last,
      gap ++ [.red "│", .plain "   "] ++ markRow placed.last length (fun _ => blankMarks),
      gap ++ [.red "╰", .red "─", .red "─", .red "─"] ++
        markRow placed.last length (fun _ => (.red "─", .red "─")) ++ [.plain (" " ++ message)] ]

/-- The rows of a label. -/
def rows (placed : Placed) (message : String) : List PieceLine :=
  if placed.firstIndex = placed.lastIndex then placed.withinLine message
  else placed.acrossLines message

end Placed

/-- The first words of every report. -/
def heading : Piece := .red "Error:"

/-- A report with a label. -/
def labelled (source : List Char) (title message : String) (label : Label) : List PieceLine :=
  let placed := Placed.ofLabel source label
  let (line, column) := placed.lineCol
  let place := "<unknown>:" ++ toString line ++ ":" ++ toString column
  let margin : Piece := .plain (copies (placed.digits + 2) " ")
  [ [heading, .plain (" " ++ title)],
    [margin, .grey 246 "╭", .grey 246 "─", .grey 246 "[", .plain place, .grey 246 "]"],
    [margin, .grey 246 "│"] ] ++
    placed.rows message ++
    [[.grey 246 (copies (placed.digits + 2) "─" ++ "╯")]]

end Report

/-- The lines of the report on a diagnostic of a source. -/
def Diagnostic.report (diagnostic : Diagnostic) (source : List Char) : List PieceLine :=
  match diagnostic, source with
  | .inSource start stop message, _ :: _ =>
      Report.labelled source diagnostic.title message (.clamp source.length start stop)
  | _, _ => [[Report.heading, .plain (" " ++ diagnostic.render)]]

/-- The text of the report on a diagnostic of a source. -/
def Diagnostic.writeReport (diagnostic : Diagnostic) (source : String) (useColour : Bool) :
    String :=
  writePage useColour (diagnostic.report source.toList)

end PlZero
