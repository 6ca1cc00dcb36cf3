/-! # Control sequences

A text from outside may hold control characters and the control sequences of a terminal. This
module leaves them out: what stays are visible characters, blanks and line ends.
-/

namespace PlZero.Text

/-- The part of a control sequence that a reader of characters is in. -/
inductive Control where
  /-- outside of any sequence -/
  | outside
  /-- behind an escape character -/
  | escape
  /-- in a short sequence, which ends with a digit, a letter or a later sign -/
  | short
  /-- in a sequence with parameters, which ends with a letter or a later sign -/
  | parameters
  /-- at the start of a string for a device -/
  | deviceStart
  /-- in the parameters of a string for a device -/
  | deviceParameters
  /-- in the signs behind these parameters -/
  | deviceSigns
  /-- in a string that ends where the byte 9C stands -/
  | content
  /-- in a command to the system, which ends with a bell -/
  | command

namespace Control

/-- Whether a character lies between two others, which count. -/
def between (first last char : Char) : Bool := first ≤ char && char ≤ last

/-- The part that a character leads to. An escape character opens a sequence anywhere, and two
characters end one anywhere. -/
def next (control : Control) (char : Char) : Control :=
  if char = '\x1b' then .escape
  else if char = '\x18' || char = '\x1a' then .outside
  else match control with
    | .outside => .outside
    | .escape =>
        if char = '[' then .parameters
        else if char = ']' then .command
        else if char = 'P' then .deviceStart
        else if char = 'X' || char = '^' || char = '_' then .content
        else if between ' ' '/' char then .short
        else if between '0' '~' char then .outside
        else .escape
    | .short => if between '0' '~' char then .outside else .short
    | .parameters => if between '@' '~' char then .outside else .parameters
    | .deviceStart =>
        if between ' ' '/' char then .deviceSigns
        else if between '0' '?' char then .deviceParameters
        else if between '@' '~' char then .content
        else .deviceStart
    | .deviceParameters =>
        if between ' ' '/' char then .deviceSigns
        else if between '<' '~' char then .content
        else .deviceParameters
    | .deviceSigns => if between '0' '~' char then .content else .deviceSigns
    | .content => if 0x9C ∈ String.utf8EncodeChar char then .outside else .content
    | .command => if char = '\x07' then .outside else .command

/-- Whether a blank or a line end is kept within a sequence. -/
def keepsLayout : Control → Bool
  | .escape | .short | .parameters => true
  | _ => false

end Control

/-- The tab and the line ends of ASCII but the vertical one. -/
def isLayout (char : Char) : Bool :=
  char = '\t' || char = '\n' || char = '\x0c' || char = '\r'

/-- Whether a character is kept outside of any sequence. -/
def isReadable (char : Char) : Bool := isLayout char || (' ' ≤ char && char ≠ '\x7f')

/-- What is kept of some characters. A sequence is set aside once a blank or a line end within it
is kept: all is kept as outside of it up to the next control character, which resumes the
sequence. -/
def readableFrom (control : Control) (aside : Bool) : List Char → List Char
  | [] => []
  | char :: chars =>
      let free := aside || control matches .outside
      if isReadable char && (free || (isLayout char && control.keepsLayout)) then
        char :: readableFrom (if '\x7f' < char then .outside else control) true chars
      else readableFrom (control.next char) false chars

/-- A text without control characters and control sequences. -/
def readable (text : String) : String :=
  String.ofList (readableFrom .outside false text.toList)

end PlZero.Text
