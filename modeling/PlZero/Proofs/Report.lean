import PlZero.Proofs.Coordinates
import PlZero.Proofs.Report.Drawing
import PlZero.Proofs.Text.Lines

/-! # The label of a report

Whatever range a diagnostic has, its label covers characters of the source, and it is the range
where this is possible. The label of an error stands at the place of the error, or on the last
character if the error is at the end; it is drawn below one line, and the heading tells its place
as the error does, as long as the lines so far end with line feeds.
-/

namespace PlZero

open Text (EndsBetween StartsBetween Unbroken WithinLine FeedsOnly)

namespace Label

variable {length start stop : Nat}

theorem clamp_drawable (hlength : 0 < length) (start stop : Nat) :
    (clamp length start stop).start < (clamp length start stop).stop ∧
      (clamp length start stop).stop ≤ length := by
  simp only [clamp]
  omega

theorem clamp_eq (hlt : start < stop) (hle : stop ≤ length) :
    clamp length start stop = ⟨start, stop⟩ := by
  have hstart : min start (length - 1) = start := by omega
  have hstop : max (min stop length) (start + 1) = stop := by omega
  simp only [clamp, hstart, hstop]

theorem clamp_start (hlt : start < length) (stop : Nat) :
    (clamp length start stop).start = start := by
  simp only [clamp]
  omega

theorem clamp_stop_le (hle : start ≤ stop) : (clamp length start stop).stop ≤ stop + 1 := by
  simp only [clamp]
  omega

/-- Behind the end, the nearest label is the last character. -/
theorem clamp_of_le (hlength : 0 < length) (hle : length ≤ start) (stop : Nat) :
    clamp length start stop = ⟨length - 1, length⟩ := by
  have hstart : min start (length - 1) = length - 1 := by omega
  have hstop : max (min stop length) (length - 1 + 1) = length := by omega
  simp only [clamp, hstart, hstop]

end Label

/-- A diagnostic with a range is reported with the label nearest to the range. -/
theorem Diagnostic.report_eq {diagnostic : Diagnostic} {start stop : Nat}
    (hrange : diagnostic.range? = some (start, stop)) {source : List Char} (hsource : source ≠ []) :
    diagnostic.report source = Report.labelled source diagnostic.title diagnostic.message
      (.clamp source.length start stop) := by
  obtain ⟨head, tail, rfl⟩ := List.exists_cons_of_ne_nil hsource
  cases diagnostic with
  | inRun message => cases hrange
  | inSource first last message =>
      cases hrange
      rfl

/-- A diagnostic of an empty source is reported on one line. -/
theorem Diagnostic.report_nil (diagnostic : Diagnostic) :
    diagnostic.report [] = [[Report.heading, .plain (" " ++ diagnostic.render)]] := by
  cases diagnostic <;> rfl

namespace Report

/-- The line that says where a label starts. -/
def PlaceLine (line column : Nat) (row : PieceLine) : Prop :=
  ∃ margin, row = [margin, .grey 246 "╭", .grey 246 "─", .grey 246 "[",
    .plain ("<unknown>:" ++ toString line ++ ":" ++ toString column), .grey 246 "]"]

theorem placeLine_labelled (source : List Char) (title message : String) (label : Label) :
    ∃ row ∈ (labelled source title message label)[1]?,
      PlaceLine (Placed.ofLabel source label).lineCol.1 (Placed.ofLabel source label).lineCol.2
        row :=
  ⟨_, rfl, _, rfl⟩

/-- A label is drawn below one line if all its characters are in one line. -/
theorem Placed.rows_ofLabel {source : List Char} {label : Label}
    (hwithin : WithinLine source label.start label.stop) (hlt : label.start < label.stop)
    (hstop : label.stop ≤ source.length) (message : String) :
    (ofLabel source label).rows message = (ofLabel source label).withinLine message := by
  rw [rows, if_pos]
  exact (hwithin.lineIndex_eq hlt hstop).symm

/-- The line of such a label holds its characters, which are red there, with marks below them. -/
theorem Placed.exists_drawnBelow {source : List Char} {label : Label}
    (hwithin : WithinLine source label.start label.stop) (hlt : label.start < label.stop)
    (hstop : label.stop ≤ source.length) (message : String) :
    ∃ line ∈ Text.linesOf source, line.offset ≤ label.start ∧
      label.stop ≤ line.offset + line.chars.length ∧
      DrawnBelow line label message ((ofLabel source label).rows message) := by
  obtain ⟨line, hline, hstart, hend⟩ := hwithin.exists_line hlt hstop
  have hfirst : (ofLabel source label).first = line := by
    rw [ofLabel, List.getD_eq_getElem?_getD, hline, Option.getD_some]
  have hindex : (ofLabel source label).firstIndex = (ofLabel source label).lastIndex :=
    (hwithin.lineIndex_eq hlt hstop).symm
  have hdrawn := (ofLabel source label).drawnBelow_withinLine hindex (hfirst ▸ hstart) hlt message
  rw [hfirst] at hdrawn
  refine ⟨line, List.mem_of_getElem? hline, hstart, hend, ?_⟩
  rw [rows_ofLabel hwithin hlt hstop]
  exact hdrawn

/-- A label is as far in its line as there are characters behind the last line end before it, and
its line has a number for each line up to there. -/
theorem Placed.lineCol_ofLabel {earlier left after : List Char} {label : Label}
    (hstarts : StartsBetween earlier (left ++ after)) (hleft : Unbroken left after)
    (hafter : after ≠ []) (hlabel : label.start = (earlier ++ left).length) :
    (ofLabel (earlier ++ (left ++ after)) label).lineCol =
      ((Text.splitLines earlier).length + 1, left.length + 1) := by
  rw [List.length_append] at hlabel
  have hindex : Text.lineIndex (Text.linesOf (earlier ++ (left ++ after))) label.start =
      (Text.splitLines earlier).length :=
    Text.lineIndex_eq hstarts hleft hafter (by omega) (by omega)
  simp only [lineCol, ofLabel, hindex, Text.offset_getD_linesOf hstarts hleft hafter]
  rw [hlabel, Nat.add_sub_cancel_left]

/-- Where all lines so far end with line feeds, a label has the line and the column that line
feeds tell. -/
theorem Placed.lineCol_ofLabel_of_feedsOnly {before left after : List Char} {label : Label}
    (hfeeds : FeedsOnly before) (hlast : Text.IsLastLine before left) (hafter : after ≠ [])
    (hlabel : label.start = before.length) :
    (ofLabel (before ++ after) label).lineCol = (1 + before.count '\n', 1 + left.length) := by
  obtain ⟨earlier, hbefore, hstarts, hleft, hcount⟩ := hfeeds.exists_startsBetween hlast after
  have hplaced := lineCol_ofLabel hstarts hleft hafter (hbefore ▸ hlabel)
  rwa [← List.append_assoc, ← hbefore, hcount, Nat.add_comm, Nat.add_comm left.length] at hplaced

end Report

namespace SyntaxError

variable {error : SyntaxError} {source : String} {before after left right covered : List Char}

/-- The report on an error that stands between two parts of its source has one label, which is
all in one line and is drawn below it. It starts at the place of the error or, at the end, on the
last character. -/
structure ReportedAt (error : SyntaxError) (source : String) (before after : List Char)
    (label : Label) : Prop where
  source_eq : source.toList = before ++ after
  offset_eq : error.offset = Text.byteLength before
  nearest : ∃ range ∈ (error.diagnostic source).range?,
    label = .clamp source.toList.length range.1 range.2
  report_eq : (error.diagnostic source).report source.toList =
    Report.labelled source.toList "Syntax Error" error.message label
  drawable : label.start < label.stop ∧ label.stop ≤ source.toList.length
  start_eq : after ≠ [] → label.start = before.length
  start_eq_last : after = [] → label.start + 1 = source.toList.length
  withinLine : WithinLine source.toList label.start label.stop
  rows_eq : (Report.Placed.ofLabel source.toList label).rows error.message =
    (Report.Placed.ofLabel source.toList label).withinLine error.message
  drawn : ∃ line ∈ Text.linesOf source.toList, line.offset ≤ label.start ∧
    label.stop ≤ line.offset + line.chars.length ∧
    Report.DrawnBelow line label error.message
      ((Report.Placed.ofLabel source.toList label).rows error.message)
  place_eq : after ≠ [] → FeedsOnly before →
    ∃ row ∈ ((error.diagnostic source).report source.toList)[1]?,
      Report.PlaceLine error.lineCol.1 error.lineCol.2 row

theorem Cause.Covers.unbroken {cause : Cause} (hcovers : cause.Covers after covered)
    (rest : List Char) : Unbroken covered rest := by
  cases cause with
  | unexpected expected =>
      obtain rfl : covered = [] := hcovers
      exact Text.unbroken_nil rest
  | oversized digits =>
      obtain ⟨-, -, -, _, hrun⟩ := hcovers
      refine Text.unbroken_of_not_mem (fun char hchar hmem => ?_) rest
      have hends : Text.lineEnds.all (! Char.isDigit ·) := by decide
      have hdigit := List.all_eq_true.mp hends char hmem
      rw [hrun.accepts_run char hchar] at hdigit
      cases hdigit
  | misshapen rule => cases hcovers

theorem PointsAt.lt_length (hpoints : error.PointsAt source before after left right covered)
    (hafter : after ≠ []) : before.length < source.toList.length := by
  rw [hpoints.source_eq, List.length_append]
  exact Nat.lt_add_of_pos_right (List.length_pos_iff.mpr hafter)

/-- At the end, an error is reported on the last character. -/
theorem PointsAt.clamp_at_end (hpoints : error.PointsAt source before [] left right covered)
    (hlength : 0 < source.toList.length) (stop : Nat) :
    Label.clamp source.toList.length before.length stop =
      ⟨source.toList.length - 1, source.toList.length⟩ := by
  refine Label.clamp_of_le hlength (Nat.le_of_eq ?_) stop
  rw [hpoints.source_eq, List.append_nil]

/-- The label nearest to the range of an error is all in one line. -/
theorem PointsAt.withinLine (hpoints : error.PointsAt source before after left right covered)
    (hlength : 0 < source.toList.length) {label : Label}
    (hlabel : label =
      .clamp source.toList.length before.length (before.length + covered.length)) :
    WithinLine source.toList label.start label.stop := by
  by_cases hafter : after = []
  · -- Nothing is between two characters of a label that has a single one.
    subst hafter
    rw [hlabel, hpoints.clamp_at_end hlength]
    intro first last _ hstart hstop
    dsimp only at hstart hstop
    omega
  · obtain ⟨rest, rfl⟩ := hpoints.covers.exists_eq_append
    have hwithin := (hpoints.covers.unbroken rest).withinLine before
    rw [← hpoints.source_eq] at hwithin
    rw [hlabel, Label.clamp_start (hpoints.lt_length hafter)]
    exact hwithin.mono (Label.clamp_stop_le (Nat.le_add_right _ _))

theorem PointsAt.exists_reportedAt
    (hpoints : error.PointsAt source before after left right covered) (hsource : source ≠ "") :
    ∃ label, error.ReportedAt source before after label := by
  have hnil : source.toList ≠ [] := mt String.toList_eq_nil_iff.mp hsource
  have hlength : 0 < source.toList.length := List.length_pos_iff.mpr hnil
  obtain ⟨label, hlabel⟩ : ∃ label, label =
      Label.clamp source.toList.length before.length (before.length + covered.length) := ⟨_, rfl⟩
  have hreport : (error.diagnostic source).report source.toList =
      Report.labelled source.toList "Syntax Error" error.message label :=
    hlabel ▸ Diagnostic.report_eq hpoints.range?_eq hnil
  have hdrawable : label.start < label.stop ∧ label.stop ≤ source.toList.length :=
    hlabel ▸ Label.clamp_drawable hlength _ _
  have hstart (hafter : after ≠ []) : label.start = before.length := by
    rw [hlabel, Label.clamp_start (hpoints.lt_length hafter)]
  have hwithin := hpoints.withinLine hlength hlabel
  refine ⟨label, hpoints.source_eq, hpoints.offset_eq, ⟨_, hpoints.range?_eq, hlabel⟩, hreport,
    hdrawable, hstart, ?_, hwithin,
    Report.Placed.rows_ofLabel hwithin hdrawable.1 hdrawable.2 _,
    Report.Placed.exists_drawnBelow hwithin hdrawable.1 hdrawable.2 _, ?_⟩
  · rintro rfl
    rw [hlabel, hpoints.clamp_at_end hlength]
    exact Nat.sub_add_cancel hlength
  · intro hafter hfeeds
    have hplaced := Report.Placed.lineCol_ofLabel_of_feedsOnly hfeeds hpoints.left_eq hafter
      (hstart hafter)
    rw [← hpoints.source_eq, ← hpoints.lineCol_eq] at hplaced
    rw [hreport, ← hplaced]
    exact Report.placeLine_labelled _ _ _ _

end SyntaxError

/-- Every label can be drawn, and the label of an error stands where the error is. Nothing of an
empty source can have a label. -/
theorem Report.labels_drawable :
    (∀ (source : List Char) (start stop : Nat) (message : String), source ≠ [] →
      (Diagnostic.inSource start stop message).report source =
          Report.labelled source "Syntax Error" message (.clamp source.length start stop) ∧
        (Label.clamp source.length start stop).start <
          (Label.clamp source.length start stop).stop ∧
        (Label.clamp source.length start stop).stop ≤ source.length ∧
        (start < stop → stop ≤ source.length →
          Label.clamp source.length start stop = ⟨start, stop⟩)) ∧
      (∀ (entry : Entry) (source : String) (error : SyntaxError),
        entry.check source = .error error → source ≠ "" →
          ∃ before after label, error.ReportedAt source before after label) ∧
      ∀ diagnostic : Diagnostic,
        diagnostic.report [] = [[Report.heading, .plain (" " ++ diagnostic.render)]] := by
  refine ⟨fun source start stop message hsource => ?_, fun entry source error hcheck hsource => ?_,
    Diagnostic.report_nil⟩
  · obtain ⟨hlt, hle⟩ := Label.clamp_drawable (List.length_pos_iff.mpr hsource) start stop
    exact ⟨Diagnostic.report_eq rfl hsource, hlt, hle, Label.clamp_eq⟩
  · obtain ⟨trace, hmatch, rfl⟩ | ⟨node, reason, hmatch, hbuild, rfl⟩ :=
      Entry.check_eq_error_iff.mp hcheck
    · obtain ⟨_, _, _, _, _, hpoints⟩ := Entry.exists_pointsAt_of_match hmatch
      exact ⟨_, _, hpoints.exists_reportedAt hsource⟩
    · obtain ⟨_, _, _, _, _, hpoints⟩ := Entry.exists_pointsAt_of_build hmatch hbuild
      exact ⟨_, _, hpoints.exists_reportedAt hsource⟩

/-- A range that is inverted and ends behind its source, one of a single character, and a literal
that is no word behind a CR LF. -/
theorem Report.labels_drawable_second_line :
    (Label.clamp 3 7 5).stop ≤ "é\nb".toList.length ∧
      Label.clamp 3 2 3 = ⟨2, 3⟩ ∧
      ∃ error, Entry.program.check "p\r\n99999999999999999999" = .error error ∧
        ∃ before after label,
          error.ReportedAt "p\r\n99999999999999999999" before after label := by
  obtain ⟨error, hcheck⟩ := exists_eq_error_of_isNone (by decide +kernel :
    (Entry.program.check "p\r\n99999999999999999999").toOption.isNone)
  exact ⟨(labels_drawable.1 "é\nb".toList 7 5 "" (by decide)).2.2.1,
    (labels_drawable.1 "é\nb".toList 2 3 "" (by decide)).2.2.2 (by decide) (by decide),
    error, hcheck, labels_drawable.2.1 .program _ error hcheck (by decide)⟩

end PlZero
