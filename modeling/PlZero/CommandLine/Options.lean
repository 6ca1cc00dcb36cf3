import PlZero.CommandLine.Similarity
import PlZero.CommandLine.Usage

/-! # Options

Arguments are read from left to right. Short flags may be joined; behind `--` every argument is a
source. A call for help or for the version, and an argument that cannot be read, end the reading
at once; flags that exclude each other and a missing source are noticed at the end.
-/

namespace PlZero.CommandLine

/-- What a command line asks for. -/
structure Options where
  inlineSource : Bool
  expr : Bool
  tree : Bool
  dumpVars : Bool
  source : String

/-- Why nothing is to be run. -/
inductive Notice where
  | help
  | version
  | misuse (error : UsageError)

/-- The flags, in the order of their last use, and the source given so far. -/
structure Given where
  flags : List Flag
  source? : Option String

namespace Given

/-- Nothing is given. -/
def none : Given := ⟨[], .none⟩

/-- Takes a flag. -/
def takeFlag (given : Given) : Flag → Except Notice Given
  | .help => .error .help
  | .version => .error .version
  | flag =>
      if flag ∈ given.flags then
        if flag.counts then .ok { given with flags := given.flags.erase flag ++ [flag] }
        else .error (.misuse (.repeatedFlag flag))
      else .ok { given with flags := given.flags ++ [flag] }

/-- Takes a source, of which there is one. -/
def takeSource (given : Given) (text : String) : Except Notice Given :=
  match given.source? with
  | .none => .ok { given with source? := some text }
  | some _ => .error (.misuse (.extraSource text))

/-- Takes joined short flags. -/
def takeShorts (given : Given) : List Char → Except Notice Given
  | [] => .ok given
  | letter :: letters =>
      match Flag.ofShort? letter with
      | some flag => do
          let given ← given.takeFlag flag
          given.takeShorts letters
      | .none => .error (.misuse (.unknownShort letter))

/-- What is wrong with a long flag that does not exist. -/
def unknownLong (given : Given) (name : String) : UsageError :=
  match (Similarity.closest? name (Flag.list.map Flag.long)).bind Flag.ofLong? with
  | some similar => .similarLong name similar given.flags
  | .none =>
      .unknownLong name
        (if given.flags.isEmpty && given.source?.isNone then .general else .withFlags given.flags)

/-- What is wrong with a value for a flag, which takes none. -/
def unwantedValue (given : Given) (flag : Flag) (value : String) : UsageError :=
  .unwantedValue flag value
    (if given.flags.isEmpty then .withFlags [flag]
    else .withAny (if flag.configures then [] else [flag]))

/-- Takes a long flag, which has no value. -/
def takeLong (given : Given) (text : List Char) : Except Notice Given :=
  let name := String.ofList (text.takeWhile (· ≠ '='))
  match Flag.ofLong? name, text.dropWhile (· ≠ '=') with
  | some flag, [] => given.takeFlag flag
  | some flag, _ :: value => .error (.misuse (given.unwantedValue flag (.ofList value)))
  | .none, _ => .error (.misuse (given.unknownLong name))

/-- Takes arguments that are all sources. -/
def takeSources (given : Given) : List String → Except Notice Given
  | [] => .ok given
  | text :: texts => do
      let given ← given.takeSource text
      given.takeSources texts

/-- Takes the arguments of a command line. -/
def takeAll (given : Given) : List String → Except Notice Given
  | [] => .ok given
  | argument :: arguments =>
      match argument.toList with
      | ['-', '-'] => given.takeSources arguments
      | '-' :: '-' :: text => do
          let given ← given.takeLong text
          given.takeAll arguments
      | '-' :: letter :: letters => do
          let given ← given.takeShorts (letter :: letters)
          given.takeAll arguments
      | _ => do
          let given ← given.takeSource argument
          given.takeAll arguments

/-- The first flag that another one excludes, in the order given, with all that exclude it. -/
def conflict? (flags : List Flag) : Option (Flag × List Flag) :=
  (flags.map fun flag => (flag, flags.filter flag.excludes)).find? fun (_, others) =>
    !others.isEmpty

/-- The options, unless flags exclude each other or there is no source. -/
def options (given : Given) : Except Notice Options :=
  match conflict? given.flags, given.source? with
  | some (flag, others), _ =>
      .error (.misuse (.conflict flag others (given.flags.filter (· ∉ others))))
  | .none, .none => .error (.misuse (.missingSource given.flags))
  | .none, some source =>
      .ok
        { inlineSource := .inlineSource ∈ given.flags
          expr := .expr ∈ given.flags
          tree := .tree ∈ given.flags
          dumpVars := .dumpVars ∈ given.flags
          source }

end Given

/-- Reads the arguments of a command line. -/
def Options.ofArguments (arguments : List String) : Except Notice Options := do
  let given ← Given.none.takeAll arguments
  given.options

end PlZero.CommandLine
