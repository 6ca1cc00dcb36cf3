import PlZero.CommandLine.Run

/-! # The program

The outer layer of the command line: it reads the file that is asked for, and writes what the run
leaves behind.
-/

namespace PlZero.CommandLine

/-- The number of a failure, which some operations of the system give negated. -/
def failureNumber (code : UInt32) : Nat := min code.toNat (-code).toNat

/-- What the system says about a failure. -/
def ReadFailure.ofError : IO.Error → ReadFailure
  | .noFileOrDirectory .. | .noSuchThing .. => .system "No such file or directory" 2
  | .inappropriateType _ code _ =>
      if failureNumber code = 20 then .system "Not a directory" 20
      else .system "Is a directory" 21
  | .invalidArgument _ code _ =>
      if failureNumber code = 36 then .system "File name too long" 36
      else .system "Invalid argument" (failureNumber code)
  | .permissionDenied _ code _ => .system "Permission denied" (failureNumber code)
  | error => .system (toString error) 5

/-- Reads a file. -/
def readFile (path : String) : IO (Except ReadFailure ByteArray) := do
  try
    return .ok (← IO.FS.readBinFile path)
  catch error =>
    return .error (.ofError error)

/-- The bound on the rounds of a loop, which no run reaches in practice. -/
def roundBudget : Nat := 4611686018427387904

end PlZero.CommandLine

open PlZero.CommandLine in
/-- Runs the command line with the arguments it is given. -/
def main (arguments : List String) : IO UInt32 := do
  let file ← match Options.ofArguments arguments with
    | .ok options => if options.inlineSource then pure (.ok .empty) else readFile options.source
    | .error _ => pure (.ok .empty)
  match run roundBudget (fun _ => file) arguments with
  | some completion =>
      (← IO.getStdout).write completion.stdout
      IO.eprint completion.stderr
      return completion.exitCode.toUInt32
  | none => return 1
