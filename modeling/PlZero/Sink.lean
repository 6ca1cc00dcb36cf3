import PlZero.Value

/-! # Sinks

Where printed values go. Anything that takes the line of a value will do, and whatever it does
then may depend on all it was given before. A sink is one that keeps the bytes it accepts. It may
have room for a limited number of them: a text that does not fit is accepted as far as it does,
and then the sink fails. Writing nothing never fails.
-/

namespace PlZero

/-- What the lines of values can be written to. -/
class Output (Out : Type) where
  /-- Writes the line of a value, or says why it was not written whole. -/
  print : Out → Value → Except String Unit × Out

/-- How a full sink fails: it accepts nothing of what it is given, or it reports an error. -/
inductive Refusal where
  | stalled
  | closed

/-- What a full sink says. -/
def Refusal.reason : Refusal → String
  | .stalled => "failed to write whole buffer"
  | .closed => "closed"

/-- The bytes accepted so far, and how many a sink accepts in all. -/
structure Sink where
  limit? : Option Nat
  refusal : Refusal
  written : ByteArray

namespace Sink

/-- An empty sink that accepts everything. -/
def unlimited : Sink := ⟨none, .closed, .empty⟩

/-- An empty sink that accepts `limit` bytes. -/
def limited (limit : Nat) (refusal : Refusal) : Sink := ⟨some limit, refusal, .empty⟩

/-- The sink after it has accepted some bytes. -/
def accept (sink : Sink) (bytes : ByteArray) : Sink :=
  { sink with written := sink.written ++ bytes }

/-- Writes a text as far as there is room. -/
def write (sink : Sink) (text : String) : Except String Unit × Sink :=
  let bytes := text.toUTF8
  match sink.limit? with
  | none => (.ok (), sink.accept bytes)
  | some limit =>
      let room := limit - sink.written.size
      if bytes.size ≤ room then (.ok (), sink.accept bytes)
      else (.error sink.refusal.reason, sink.accept (bytes.extract 0 room))

/-- Writes a text and then the end of its line. -/
def writeLine (sink : Sink) (text : String) : Except String Unit × Sink :=
  match sink.write text with
  | (.ok (), sink) => sink.write "\n"
  | failed => failed

end Sink

instance : Output Sink where
  print sink value := sink.writeLine value.render

end PlZero
