import PlZero.Diagnostic
import PlZero.Expr.OfNode
import PlZero.Text.Position

/-! # Errors of the source text

An error keeps the text it was found in and the characters it is about. Everything else that is
told about it, such as its line or the text around it, follows from these.
-/

namespace PlZero

/-- What is wrong with a source text. -/
inductive SyntaxError.Cause where
  | unexpected (expected : List Rule)
  | oversized (digits : String)
  | misshapen (rule : Rule)

/-- An error about the characters of `source` from `start` up to `stop`. -/
structure SyntaxError where
  source : String
  start : Nat
  stop : Nat
  cause : SyntaxError.Cause

namespace SyntaxError

/-- The error of a text that does not match: the rules that failed at the furthest place. -/
def ofTrace (source : String) (trace : Peg.Trace Rule) : SyntaxError :=
  ⟨source, trace.offset, trace.offset, .unexpected (Rule.list.filter (· ∈ trace.tried))⟩

/-- The error of a text that matches but has no tree. -/
def ofTreeError (source : String) : TreeError → SyntaxError
  | .oversized offset digits =>
      ⟨source, offset, offset + digits.length, .oversized (.ofList digits)⟩
  | .misshapen rule => ⟨source, 0, source.length, .misshapen rule⟩

/-- Alternatives in a sentence. -/
def alternatives : List String → String
  | [] => "nothing"
  | [name] => name
  | [first, second] => first ++ " or " ++ second
  | names => ", ".intercalate names.dropLast ++ ", or " ++ names.getLastD ""

/-- What is wrong, in words. -/
def message (error : SyntaxError) : String :=
  match error.cause with
  | .unexpected expected => "expected " ++ alternatives (expected.map Rule.describe)
  | .oversized digits => "integer literal `" ++ digits ++ "` does not fit in 64 bits"
  | .misshapen rule => "malformed " ++ rule.describe

/-- How many bytes lie before a place of the source. -/
def byteOffset (error : SyntaxError) (chars : Nat) : Nat :=
  Text.byteLength (error.source.toList.take chars)

/-- Where the error starts, in bytes. -/
def offset (error : SyntaxError) : Nat := error.byteOffset error.start

/-- Where the error starts, as a line and a column from one. -/
def lineCol (error : SyntaxError) : Nat × Nat :=
  Text.lineCol (error.source.toList.take error.start)

/-- The visible signs of the two characters that end a line. -/
def visibleLineEnd : Char → Char
  | '\r' => '␍'
  | '\n' => '␊'
  | char => char

/-- Whether the error has no extent and stands on a character that ends a line. -/
def atLineEnd (error : SyntaxError) : Bool :=
  error.start = error.stop &&
    match error.source.toList[error.start]? with
    | some char => char = '\r' || char = '\n'
    | none => false

/-- The line the error starts in, without the characters that end a line. They are made visible
instead if the error is about one of them. -/
def fragment (error : SyntaxError) : List Char :=
  let line := Text.lineAround error.source.toList error.start
  if error.atLineEnd then line.map visibleLineEnd
  else line.filter fun char => char ≠ '\r' && char ≠ '\n'

/-- The marks below the characters an error is about. -/
def mark (error : SyntaxError) : String :=
  if error.start = error.stop then "^---"
  else if error.stop - error.start = 1 then "^"
  else "^" ++ String.ofList (List.replicate (error.stop - error.start - 2) '-') ++ "^"

/-- The error with the line it is in and a mark below the place. -/
def render (error : SyntaxError) : String :=
  let (line, column) := error.lineCol
  let number := toString line
  let margin := String.ofList (List.replicate number.length ' ')
  let pad := (error.fragment.take (column - 1)).map fun char => if char = '\t' then '\t' else ' '
  margin ++ "--> " ++ number ++ ":" ++ toString column ++ "\n" ++
    margin ++ " |\n" ++
    number ++ " | " ++ String.ofList error.fragment ++ "\n" ++
    margin ++ " | " ++ String.ofList pad ++ error.mark ++ "\n" ++
    margin ++ " |\n" ++
    margin ++ " = " ++ error.message

/-- The place of a byte offset in some text, in characters. An offset that is not between two
characters of the text stays as it is. -/
def placeIn (text : String) (bytes : Nat) : Nat :=
  (Text.charsWithin? bytes text.toList).getD bytes

/-- What a user is told, with the place in the text that is to be shown. -/
def diagnostic (error : SyntaxError) (shown : String) : Diagnostic :=
  .inSource (placeIn shown error.offset) (placeIn shown (error.byteOffset error.stop))
    error.message

end SyntaxError

end PlZero
