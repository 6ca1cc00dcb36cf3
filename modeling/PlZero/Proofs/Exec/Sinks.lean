import PlZero.Exec

/-! # Sinks that fill up

A sink that accepts everything shows what was printed. What a sink with room for a number of bytes
holds is the beginning of that, and it reports a failure for the first line that goes past its
room.
-/

namespace PlZero

namespace Sink

variable {sink : Sink} {limit : Nat} {refusal : Refusal}

@[simp]
theorem written_accept (sink : Sink) (bytes : ByteArray) :
    (sink.accept bytes).written = sink.written ++ bytes :=
  rfl

theorem accept_empty (sink : Sink) : sink.accept .empty = sink := by
  rw [accept, ByteArray.append_empty]

theorem accept_accept (sink : Sink) (bytes more : ByteArray) :
    (sink.accept bytes).accept more = sink.accept (bytes ++ more) := by
  rw [accept, accept, accept, ByteArray.append_assoc]

/-- A sink with room for `limit` bytes that was given the same. -/
def restrict (sink : Sink) (limit : Nat) (refusal : Refusal) : Sink :=
  ⟨some limit, refusal, sink.written.extract 0 limit⟩

theorem restrict_of_le (hroom : sink.written.size ≤ limit) :
    sink.restrict limit refusal = ⟨some limit, refusal, sink.written⟩ := by
  rw [restrict, ← Nat.max_eq_left hroom, ByteArray.extract_zero_max_size]

/-- What a full sink is given makes no difference to it. -/
theorem restrict_accept_of_full (hfull : limit ≤ sink.written.size) (bytes : ByteArray) :
    (sink.accept bytes).restrict limit refusal = sink.restrict limit refusal := by
  rw [restrict, restrict, written_accept, ByteArray.extract_append, Nat.sub_eq_zero_of_le hfull,
    Nat.zero_sub, ByteArray.extract_same, ByteArray.append_empty]

/-- The line of a text. -/
def line (text : String) : ByteArray :=
  text.toUTF8 ++ "\n".toUTF8

theorem write_of_open (hopen : sink.limit? = none) (text : String) :
    sink.write text = (.ok (), sink.accept text.toUTF8) := by
  rw [write, hopen]

theorem writeLine_of_write_ok {text : String} {middle : Sink}
    (hwrite : sink.write text = (.ok (), middle)) : sink.writeLine text = middle.write "\n" := by
  rw [writeLine, hwrite]

theorem writeLine_of_write_error {text reason : String} {middle : Sink}
    (hwrite : sink.write text = (.error reason, middle)) :
    sink.writeLine text = (.error reason, middle) := by
  rw [writeLine, hwrite]

theorem writeLine_of_open (hopen : sink.limit? = none) (text : String) :
    sink.writeLine text = (.ok (), sink.accept (line text)) := by
  rw [writeLine_of_write_ok (write_of_open hopen text),
    @write_of_open (sink.accept text.toUTF8) hopen, accept_accept, line]

/-- A text is accepted as far as there is room, and there is a failure unless all of it is. -/
theorem write_restrict (sink : Sink) (limit : Nat) (refusal : Refusal) (text : String) :
    (sink.restrict limit refusal).write text =
      (if text.toUTF8.size ≤ limit - sink.written.size then .ok () else .error refusal.reason,
        (sink.accept text.toUTF8).restrict limit refusal) := by
  have hroom : limit - (sink.written.extract 0 limit).size = limit - sink.written.size := by
    rw [ByteArray.size_extract]
    omega
  have haccept : (sink.accept text.toUTF8).restrict limit refusal =
      (sink.restrict limit refusal).accept
        (text.toUTF8.extract 0 (limit - sink.written.size)) := by
    rw [restrict, restrict, written_accept, ByteArray.extract_append, Nat.zero_sub, accept]
  rw [haccept, write, restrict]
  simp only [hroom]
  split
  next hfits => rw [← Nat.max_eq_left hfits, ByteArray.extract_zero_max_size]
  next => rfl

/-- A line is accepted as far as there is room, and there is a failure unless all of it is. -/
theorem writeLine_restrict (hroom : sink.written.size ≤ limit) (text : String) :
    (sink.restrict limit refusal).writeLine text =
      (if (sink.accept (line text)).written.size ≤ limit then .ok () else .error refusal.reason,
        (sink.accept (line text)).restrict limit refusal) := by
  have hsize : (sink.accept (line text)).written.size =
      sink.written.size + text.toUTF8.size + "\n".toUTF8.size := by
    rw [written_accept, line, ByteArray.size_append, ByteArray.size_append, Nat.add_assoc]
  have hwrite := write_restrict sink limit refusal text
  by_cases htext : text.toUTF8.size ≤ limit - sink.written.size
  · -- The text fits, and the end of the line decides.
    rw [if_pos htext] at hwrite
    rw [writeLine_of_write_ok hwrite, write_restrict, accept_accept, ← line]
    congr 1
    refine ite_congr (propext ?_) (fun _ => rfl) (fun _ => rfl)
    rw [hsize, written_accept, ByteArray.size_append]
    omega
  · -- The text fills the sink, so the end of the line makes no difference.
    have hfull : limit ≤ (sink.accept text.toUTF8).written.size := by
      rw [written_accept, ByteArray.size_append]
      omega
    rw [if_neg htext] at hwrite
    rw [writeLine_of_write_error hwrite, if_neg (by omega), line, ← accept_accept,
      restrict_accept_of_full hfull]

/-- A sink takes as much of the line of a text as it has room for, and that is not all of it. -/
def Refuses (sink : Sink) (text : String) (after : Sink) : Prop :=
  ∃ limit, sink.limit? = some limit ∧ limit - sink.written.size < (line text).size ∧
    after = sink.accept ((line text).extract 0 (limit - sink.written.size))

theorem write_eq_error {text reason : String} {after : Sink}
    (hwrite : sink.write text = (.error reason, after)) :
    ∃ limit, sink.limit? = some limit ∧ limit - sink.written.size < text.toUTF8.size ∧
      after = sink.accept (text.toUTF8.extract 0 (limit - sink.written.size)) := by
  unfold write at hwrite
  split at hwrite
  next => cases hwrite
  next limit hlimit =>
    simp only at hwrite
    split at hwrite
    next => cases hwrite
    next hroom => exact ⟨limit, hlimit, Nat.lt_of_not_le hroom, (Prod.mk.inj hwrite).2.symm⟩

theorem write_eq_ok {text : String} {after : Sink} (hwrite : sink.write text = (.ok (), after)) :
    after = sink.accept text.toUTF8 ∧
      ∀ limit, sink.limit? = some limit → text.toUTF8.size ≤ limit - sink.written.size := by
  unfold write at hwrite
  split at hwrite
  next hopen => exact ⟨(Prod.mk.inj hwrite).2.symm, by simp [hopen]⟩
  next limit hlimit =>
    simp only at hwrite
    split at hwrite
    next hroom => exact ⟨(Prod.mk.inj hwrite).2.symm, by simpa [hlimit] using hroom⟩
    next => cases hwrite

/-- Whatever comes of a text, a part of it is accepted. -/
theorem exists_accept_write (sink : Sink) (text : String) :
    ∃ bytes, (sink.write text).2 = sink.accept bytes := by
  rcases hwrite : sink.write text with ⟨reason | ⟨⟩, after⟩
  · obtain ⟨limit, -, -, rfl⟩ := write_eq_error hwrite
    exact ⟨_, rfl⟩
  · exact ⟨_, (write_eq_ok hwrite).1⟩

theorem exists_accept_writeLine (sink : Sink) (text : String) :
    ∃ bytes, (sink.writeLine text).2 = sink.accept bytes := by
  obtain ⟨bytes, hbytes⟩ := sink.exists_accept_write text
  rcases hwrite : sink.write text with ⟨reason | ⟨⟩, middle⟩ <;> rw [hwrite] at hbytes
  · rw [writeLine_of_write_error hwrite]
    exact ⟨bytes, hbytes⟩
  · obtain rfl : middle = sink.accept bytes := hbytes
    obtain ⟨more, hmore⟩ := (sink.accept bytes).exists_accept_write "\n"
    exact ⟨bytes ++ more, by rw [writeLine_of_write_ok hwrite, hmore, accept_accept]⟩

/-- A line fails because the sink refuses a part of it. -/
theorem refuses_of_writeLine {text reason : String} {after : Sink}
    (hwrite : sink.writeLine text = (.error reason, after)) : sink.Refuses text after := by
  have hsize : (line text).size = text.toUTF8.size + "\n".toUTF8.size := ByteArray.size_append
  cases htext : sink.write text with
  | mk result middle =>
      cases result with
      | error first =>
          -- The text does not fit, so nothing is accepted of the end of the line.
          rw [writeLine_of_write_error htext] at hwrite
          obtain ⟨limit, hlimit, hroom, hmiddle⟩ := write_eq_error htext
          refine ⟨limit, hlimit, by omega, ?_⟩
          rw [← (Prod.mk.inj hwrite).2, hmiddle, line, ByteArray.extract_append,
            Nat.sub_eq_zero_of_le (Nat.le_of_lt hroom), Nat.zero_sub, ByteArray.extract_same,
            ByteArray.append_empty]
      | ok value =>
          rw [writeLine_of_write_ok htext] at hwrite
          obtain ⟨rfl, hfits⟩ := write_eq_ok htext
          obtain ⟨limit, hlimit, hroom, rfl⟩ := write_eq_error hwrite
          have htext := hfits limit hlimit
          rw [written_accept, ByteArray.size_append] at hroom
          have hwhole : text.toUTF8.extract 0 (limit - sink.written.size) = text.toUTF8 := by
            rw [← Nat.max_eq_left htext, ByteArray.extract_zero_max_size]
          refine ⟨limit, hlimit, by omega, ?_⟩
          rw [accept_accept, line, ByteArray.extract_append, hwhole, Nat.zero_sub, written_accept,
            ByteArray.size_append, Nat.sub_add_eq]

end Sink

namespace State

variable {state : State} {limit : Nat} {refusal : Refusal}

/-- The state after a line has been accepted. -/
def printed (state : State) (value : Value) : State :=
  { state with sink := state.sink.accept (Sink.line value.render) }

/-- The same with room for `limit` bytes in the sink. -/
def restrict (state : State) (limit : Nat) (refusal : Refusal) : State :=
  { state with sink := state.sink.restrict limit refusal }

theorem print_of_open (hopen : state.sink.limit? = none) (value : Value) :
    state.print value = (.ok (), state.printed value) := by
  have hwrite : Output.print state.sink value =
      (.ok (), state.sink.accept (Sink.line value.render)) := Sink.writeLine_of_open hopen _
  rw [print, hwrite, printed]
  rfl

theorem refuses_of_print {final : State} {value : Value} {reason : String}
    (hprint : state.print value = (.error (.output reason), final)) :
    state.sink.Refuses value.render final.sink := by
  unfold print at hprint
  cases hwrite : Output.print state.sink value with
  | mk result after =>
      rw [hwrite] at hprint
      cases result with
      | ok value => cases hprint
      | error first =>
          cases hprint
          exact Sink.refuses_of_writeLine hwrite

theorem size_le_size_printed (state : State) (value : Value) :
    state.sink.written.size ≤ (state.printed value).sink.written.size := by
  rw [printed, Sink.written_accept, ByteArray.size_append]
  exact Nat.le_add_right _ _

/-- A line that goes past the room of the sink is a fault. -/
theorem print_restrict (hroom : state.sink.written.size ≤ limit) (value : Value) :
    (state.restrict limit refusal).print value =
      (if (state.printed value).sink.written.size ≤ limit then .ok ()
        else .error (.output refusal.reason), (state.printed value).restrict limit refusal) := by
  have hwrite : Output.print (state.restrict limit refusal).sink value = _ :=
    Sink.writeLine_restrict hroom value.render
  rw [print, hwrite]
  simp only [apply_ite (Except.mapError Fault.output)]
  rfl

theorem print_restrict_of_le {value : Value}
    (hroom : (state.printed value).sink.written.size ≤ limit) :
    (state.restrict limit refusal).print value =
      (.ok (), (state.printed value).restrict limit refusal) := by
  rw [print_restrict (Nat.le_trans (state.size_le_size_printed value) hroom), if_pos hroom]

theorem print_restrict_of_lt {value : Value} (hroom : state.sink.written.size ≤ limit)
    (hcut : limit < (state.printed value).sink.written.size) :
    (state.restrict limit refusal).print value =
      (.error (.output refusal.reason), (state.printed value).restrict limit refusal) := by
  rw [print_restrict hroom, if_neg (Nat.not_le.mpr hcut)]

end State

end PlZero
