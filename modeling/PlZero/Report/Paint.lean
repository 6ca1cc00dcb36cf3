/-! # Coloured text

A page of coloured text is a list of lines, and a line a list of pieces. It can be written with
the control sequences of a terminal or without colour.
-/

namespace PlZero

/-- A foreground colour: red, or one of the greys of the palette of 256 colours. -/
inductive Colour where
  | red
  | grey (index : Nat)

/-- The parameter that selects a colour. -/
def Colour.code : Colour → String
  | .red => "31"
  | .grey index => "38;5;" ++ toString index

/-- A piece of text in one colour, or in none. -/
structure Piece where
  colour? : Option Colour
  text : String

namespace Piece

/-- A piece without colour. -/
def plain (text : String) : Piece := ⟨none, text⟩

/-- A piece in red. -/
def red (text : String) : Piece := ⟨some .red, text⟩

/-- A piece in grey. -/
def grey (index : Nat) (text : String) : Piece := ⟨some (.grey index), text⟩

/-- The text of a piece, with or without its colour. -/
def write (useColour : Bool) (piece : Piece) : String :=
  match useColour, piece.colour? with
  | true, some colour => "\x1b[" ++ colour.code ++ "m" ++ piece.text ++ "\x1b[0m"
  | _, _ => piece.text

end Piece

/-- A line of coloured text. -/
abbrev PieceLine := List Piece

/-- The text of some lines, each with its end. -/
def writePage (useColour : Bool) (page : List PieceLine) : String :=
  String.join (page.map fun line => String.join (line.map (Piece.write useColour)) ++ "\n")

end PlZero
