import PlZero.Text.Combining
import PlZero.Text.Unprintable

/-! # Quoted text

A text between double quotes in which everything that could be overlooked is spelled out. A
single quote stands for itself.
-/

namespace PlZero.Text

/-- The digits of a number to base sixteen, in lower case. -/
def hexText (number : Nat) : String := String.ofList (Nat.toDigits 16 number)

/-- How a character is written inside double quotes. -/
def escape (char : Char) : String :=
  match char with
  | '\x00' => "\\0"
  | '\t' => "\\t"
  | '\r' => "\\r"
  | '\n' => "\\n"
  | '"' => "\\\""
  | '\\' => "\\\\"
  | char =>
      if isCombining char || isUnprintable char then "\\u\x7b" ++ hexText char.toNat ++ "\x7d"
      else char.toString

/-- A text in double quotes. -/
def quote (text : String) : String :=
  "\"" ++ String.join (text.toList.map escape) ++ "\""

end PlZero.Text
