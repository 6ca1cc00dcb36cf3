import PlZero.CommandLine.Options
import PlZero.Interpreter
import PlZero.Outline
import PlZero.Report

/-! # Running a command line

A run ends with an exit code and the bytes on both outputs. The language decides about success:
an error of the source or a fault is reported in colour and gives exit code 1, a misuse of the
command line gives exit code 2.
-/

namespace PlZero.CommandLine

/-- Why a file could not be read. -/
inductive ReadFailure where
  | system (text : String) (code : Nat)
  | notUtf8

/-- A failure to read a file, in words. -/
def ReadFailure.reason : ReadFailure → String
  | .system text code => text ++ " (os error " ++ toString code ++ ")"
  | .notUtf8 => "stream did not contain valid UTF-8"

/-- What a run leaves behind. -/
structure Completion where
  exitCode : Nat
  stdout : ByteArray
  stderr : String

namespace Completion

/-- Success, with some output. -/
def success (stdout : ByteArray) : Completion := ⟨0, stdout, ""⟩

/-- A failure that is reported against a source. -/
def failure (source : String) (stdout : ByteArray) (diagnostic : Diagnostic) : Completion :=
  ⟨1, stdout, diagnostic.writeReport source true⟩

/-- The answer to a command line that asks for no run. -/
def ofNotice : Notice → Completion
  | .help => success helpText.toUTF8
  | .version => success versionText.toUTF8
  | .misuse error => ⟨2, .empty, error.message⟩

/-- The answer to a source that cannot be read. -/
def unreadable (path : String) (failure : ReadFailure) : Completion :=
  ⟨1, .empty, "Failed to read '" ++ path ++ "': " ++ failure.reason ++ "\n"⟩

end Completion

/-- The text of a file, if its bytes are one. -/
def decodeFile (content : Except ReadFailure ByteArray) : Except ReadFailure String := do
  match String.fromUTF8? (← content) with
  | some text => .ok text
  | none => .error .notUtf8

namespace Options

/-- Prints the tree of a source. -/
def showTree (options : Options) (source : String) : Completion :=
  let outline : Except SyntaxError Outline :=
    if options.expr then (Expr.parse source).map Expr.outline
    else (Program.parse source).map Block.outline
  match outline with
  | .ok outline => .success (outline.page 0 ++ "\n").toUTF8
  | .error error => .failure source .empty (error.diagnostic source)

/-- Evaluates a source as an expression and prints its value. -/
def showValue (source : String) : Completion :=
  match (State.fresh .unlimited).interpretExpr source with
  | .ok value => .success (value.render ++ "\n").toUTF8
  | .error error => .failure source .empty (error.diagnostic source)

/-- Runs a source as a program; there is no completion if a loop exceeds the budget. -/
def runProgram (options : Options) (budget : Nat) (source : String) : Option Completion := do
  let (result, state) ← (State.fresh .unlimited).interpret budget source
  match result with
  | .error error => return .failure source state.sink.written (error.diagnostic source)
  | .ok () =>
      let vars := if options.dumpVars then state.env.lines else []
      return .success
        (state.sink.written ++ (String.join (vars.map fun line => line ++ "\n")).toUTF8)

/-- Does with a source what the options ask for. -/
def runSource (options : Options) (budget : Nat) (source : String) : Option Completion :=
  if options.tree then some (options.showTree source)
  else if options.expr then some (showValue source)
  else options.runProgram budget source

/-- Does what the options ask for, with the content of the file they name if they name one. -/
def run (options : Options) (budget : Nat) (file : Except ReadFailure ByteArray) :
    Option Completion :=
  if options.inlineSource then options.runSource budget options.source
  else match decodeFile file with
    | .ok source => options.runSource budget source
    | .error failure => some (.unreadable options.source failure)

end Options

/-- Runs a command line, given what reading a file by its path yields. -/
def run (budget : Nat) (readFile : String → Except ReadFailure ByteArray)
    (arguments : List String) : Option Completion :=
  match Options.ofArguments arguments with
  | .error notice => some (.ofNotice notice)
  | .ok options => options.run budget (readFile options.source)

end PlZero.CommandLine
