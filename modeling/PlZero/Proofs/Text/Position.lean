import PlZero.Text.Position

/-! # Places of characters

Every character takes at least one byte, so the number of bytes before a place decides the number
of characters before it. The line around a place is what precedes the place behind the last line
feed and what follows it up to the next.
-/

namespace PlZero.Text

@[simp]
theorem byteLength_append (first next : List Char) :
    byteLength (first ++ next) = byteLength first + byteLength next := by
  induction first with
  | nil => simp [byteLength]
  | cons head first ih => simp only [List.cons_append, byteLength, ih, Nat.add_assoc]

/-- The bytes of the first characters of a text hold just these characters. -/
theorem charsWithin?_byteLength_append (before after : List Char) :
    charsWithin? (byteLength before) (before ++ after) = some before.length := by
  induction before with
  | nil => simp [byteLength, charsWithin?]
  | cons head before ih =>
      obtain ⟨bytes, hbytes⟩ : ∃ bytes, byteLength (head :: before) = bytes + 1 :=
        Nat.exists_eq_add_one.mpr (Nat.add_pos_left head.utf8Size_pos _)
      have hle : head.utf8Size ≤ bytes + 1 := by
        rw [← hbytes]
        exact Nat.le_add_right _ _
      have hrest : bytes + 1 - head.utf8Size = byteLength before := by
        rw [← hbytes]
        exact Nat.add_sub_cancel_left _ _
      rw [hbytes, List.cons_append, charsWithin?, if_pos hle, hrest, ih]
      rfl

/-- A place that is told in bytes is found again in characters. -/
theorem charsWithin?_byteLength_take {chars : List Char} {count : Nat}
    (hcount : count ≤ chars.length) :
    charsWithin? (byteLength (chars.take count)) chars = some count := by
  have hplace := charsWithin?_byteLength_append (chars.take count) (chars.drop count)
  rwa [List.take_append_drop, List.length_take_of_le hcount] at hplace

/-! ## Lines -/

theorem length_filter_ne (char : Char) (text : List Char) :
    (text.filter (· ≠ char)).length = text.length - text.count char := by
  have hlength : text.length = text.count char + text.countP fun other => ¬ other == char :=
    List.length_eq_countP_add_countP (· == char)
  rw [hlength, Nat.add_sub_cancel_left, List.countP_eq_length_filter]
  simp

/-- What a text ends with, behind its last line feed. -/
def IsLastLine (text line : List Char) : Prop :=
  '\n' ∉ line ∧ ∃ earlier, text = earlier ++ line ∧ ∀ char ∈ earlier.getLast?, char = '\n'

/-- What a text starts with, in front of its first line feed. -/
def IsFirstLine (text line : List Char) : Prop :=
  '\n' ∉ line ∧ ∃ later, text = line ++ later ∧ ∀ char ∈ later.head?, char = '\n'

theorem isFirstLine_takeWhile (text : List Char) :
    IsFirstLine text (text.takeWhile (· ≠ '\n')) := by
  refine ⟨fun hfeed => ?_, text.dropWhile (· ≠ '\n'), List.takeWhile_append_dropWhile.symm, ?_⟩
  · simpa using List.all_eq_true.mp List.all_takeWhile '\n' hfeed
  · intro char hchar
    have hhead := List.head?_dropWhile_not (· ≠ '\n') text
    rw [Option.mem_def.mp hchar] at hhead
    simpa using hhead

/-- The last line is the first line from behind. -/
theorem isLastLine_lastLine (text : List Char) : IsLastLine text (lastLine text) := by
  obtain ⟨hfeed, later, htext, hlater⟩ := isFirstLine_takeWhile text.reverse
  refine ⟨by simpa [lastLine] using hfeed, later.reverse, ?_, ?_⟩
  · rw [lastLine, ← List.reverse_append, ← htext, List.reverse_reverse]
  · rwa [List.getLast?_reverse]

/-- Only the line feed at the end of the line around a place is a line feed. -/
theorem filter_lineAround (before after : List Char) :
    (lineAround (before ++ after) before.length).filter (· ≠ '\n') =
      lastLine before ++ after.takeWhile (· ≠ '\n') := by
  obtain ⟨hbefore, -⟩ := isLastLine_lastLine before
  obtain ⟨hafter, later, htext, hlater⟩ := isFirstLine_takeWhile after
  have hfeed : ((after.dropWhile (· ≠ '\n')).take 1).filter (· ≠ '\n') = [] := by
    obtain rfl : after.dropWhile (· ≠ '\n') = later :=
      List.append_cancel_left (List.takeWhile_append_dropWhile.trans htext)
    rcases hrest : after.dropWhile (· ≠ '\n') with _ | ⟨head, rest⟩
    · rfl
    · obtain rfl : head = '\n' := hlater head (hrest ▸ rfl)
      rfl
  have hkept {line : List Char} (hline : '\n' ∉ line) : line.filter (· ≠ '\n') = line :=
    List.filter_eq_self.mpr fun char hchar =>
      decide_eq_true fun heq : char = '\n' => hline (heq ▸ hchar)
  rw [lineAround, List.take_left, List.drop_left, firstLine, List.filter_append,
    List.filter_append, hfeed, List.append_nil, hkept hbefore, hkept hafter]

end PlZero.Text
