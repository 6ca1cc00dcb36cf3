import PlZero.CommandLine.Flag
import PlZero.Text.Control

/-! # Usage

The texts about how the command line is used, and what is said when it is used otherwise. An
argument appears in these texts without control characters.
-/

namespace PlZero.CommandLine

/-- The name of the program. -/
def programName : String := "pl0"

/-- How the source is named in messages. -/
def sourceName : String := "SOURCE"

/-- A line of usage. -/
inductive Usage where
  /-- any flags, and the source -/
  | general
  /-- certain flags, and the source -/
  | withFlags (flags : List Flag)
  /-- certain flags, and anything that says how or what to run -/
  | withAny (flags : List Flag)

/-- What stands for anything that says how or what to run. -/
def anyInput : String :=
  let names := (Flag.list.filter Flag.configures).map Flag.shown ++ [sourceName]
  "<" ++ "|".intercalate names ++ ">"

/-- The text of a line of usage. -/
def Usage.text (usage : Usage) : String :=
  let source := "<" ++ sourceName ++ ">"
  let words := match usage with
    | .general => ["[OPTIONS]", source]
    | .withFlags flags => flags.map Flag.shown ++ [source]
    | .withAny flags => flags.map Flag.shown ++ [anyInput]
  "Usage: " ++ " ".intercalate (programName :: words)

/-- A use that the command line does not allow. `given` are the flags that stand in the line of
usage. -/
inductive UsageError where
  | unknownShort (letter : Char)
  | unknownLong (name : String) (usage : Usage)
  | similarLong (name : String) (similar : Flag) (given : List Flag)
  | extraSource (text : String)
  | repeatedFlag (flag : Flag)
  | unwantedValue (flag : Flag) (value : String) (usage : Usage)
  | conflict (flag : Flag) (others : List Flag) (given : List Flag)
  | missingSource (given : List Flag)

namespace UsageError

/-- An argument that was not expected. -/
def unexpected (argument : String) : String :=
  "unexpected argument '" ++ Text.readable argument ++ "' found"

/-- How an argument that looks like a flag can be given as a source. -/
def valueTip (argument : String) : String :=
  let shown := Text.readable argument
  "\n\n  tip: to pass '" ++ shown ++ "' as a value, use '-- " ++ shown ++ "'"

/-- What is wrong, and perhaps a tip. -/
def explanation : UsageError → String
  | .unknownShort letter =>
      let argument := "-" ++ letter.toString
      unexpected argument ++ valueTip argument
  | .unknownLong name _ => unexpected ("--" ++ name) ++ valueTip ("--" ++ name)
  | .similarLong name similar _ =>
      unexpected ("--" ++ name) ++ "\n\n  tip: a similar argument exists: '--" ++ similar.long ++
        "'"
  | .extraSource text => unexpected text
  | .repeatedFlag flag => "the argument '" ++ flag.shown ++ "' cannot be used multiple times"
  | .unwantedValue flag value _ =>
      "unexpected value '" ++ Text.readable value ++ "' for '" ++ flag.shown ++
        "' found; no more were expected"
  | .conflict flag [other] _ =>
      "the argument '" ++ flag.shown ++ "' cannot be used with '" ++ other.shown ++ "'"
  | .conflict flag others _ =>
      "the argument '" ++ flag.shown ++ "' cannot be used with:" ++
        String.join (others.map fun other => "\n  " ++ other.shown)
  | .missingSource _ =>
      "the following required arguments were not provided:\n  <" ++ sourceName ++ ">"

/-- The line of usage that belongs to an error. -/
def usage : UsageError → Usage
  | .unknownShort _ | .extraSource _ | .repeatedFlag _ => .general
  | .unknownLong _ usage | .unwantedValue _ _ usage => usage
  | .similarLong _ similar given => .withFlags (given ++ [similar]).eraseDups
  | .conflict _ _ given | .missingSource given => .withFlags given

/-- The whole message. -/
def message (error : UsageError) : String :=
  "error: " ++ error.explanation ++ "\n\n" ++ error.usage.text ++
    "\n\nFor more information, try '--help'.\n"

end UsageError

/-- What `--version` prints. -/
def versionText : String := "bin 0.1.0\n"

/-- What `--help` prints. -/
def helpText : String :=
  "Runs programs written in a small PL/0 style language\n\n" ++ Usage.general.text ++ "\n\n" ++
    "Arguments:\n" ++
    "  <SOURCE>  \n\n" ++
    "Options:\n" ++
    "  -i, --inline      Treat SOURCE as program text instead of a file path\n" ++
    "  -e, --expr        Evaluate SOURCE as a single expression and print its value\n" ++
    "      --ast         Parse only and print the syntax tree\n" ++
    "      --dump-vars   Print every variable after the program finished\n" ++
    "  -v, --verbose...  Log more. Repeat for even more. RUST_LOG takes precedence\n" ++
    "  -h, --help        Print help\n" ++
    "  -V, --version     Print version\n"

end PlZero.CommandLine
