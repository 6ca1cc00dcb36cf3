/-! # Flags of the command line

Every flag has a long spelling, most have a short one, and none takes a value.
-/

namespace PlZero.CommandLine

/-- A flag of the command line. -/
inductive Flag where
  | inlineSource
  | expr
  | tree
  | dumpVars
  | verbose
  | help
  | version
  deriving DecidableEq

namespace Flag

/-- Every flag, in the order of the help text. -/
def list : List Flag := [.inlineSource, .expr, .tree, .dumpVars, .verbose, .help, .version]

/-- The long spelling, without its dashes. -/
def long : Flag → String
  | .inlineSource => "inline"
  | .expr => "expr"
  | .tree => "ast"
  | .dumpVars => "dump-vars"
  | .verbose => "verbose"
  | .help => "help"
  | .version => "version"

/-- The short spelling, without its dash. -/
def short? : Flag → Option Char
  | .inlineSource => some 'i'
  | .expr => some 'e'
  | .tree | .dumpVars => none
  | .verbose => some 'v'
  | .help => some 'h'
  | .version => some 'V'

/-- Whether a flag counts how often it is given. -/
def counts : Flag → Bool
  | .verbose => true
  | _ => false

/-- Whether a flag says how to run, and does not ask for a text instead. -/
def configures : Flag → Bool
  | .help | .version => false
  | _ => true

/-- How a message shows a flag; one that counts has dots behind it. -/
def shown (flag : Flag) : String :=
  "--" ++ flag.long ++ if flag.counts then "..." else ""

/-- Whether two flags exclude each other. -/
def excludes : Flag → Flag → Bool
  | .dumpVars, .expr | .dumpVars, .tree | .expr, .dumpVars | .tree, .dumpVars => true
  | _, _ => false

/-- The flag with a long spelling. -/
def ofLong? (name : String) : Option Flag := list.find? fun flag => flag.long = name

/-- The flag with a short spelling. -/
def ofShort? (char : Char) : Option Flag := list.find? fun flag => flag.short? = some char

end Flag

end PlZero.CommandLine
